import ChainKeys.KeyAny
import ChainKeys.Main
import ChainKeys.Merkle.Tree
import ChainKeys.Rpc
import ChainKeys.Proofs.Varint
import ChainKeys.Proofs.Bytes
import ChainKeys.Proofs.Merkle.Leaves
import ChainKeys.Proofs.Merkle.Descent
import ChainKeys.Proofs.Merkle.Soundness
import ChainKeys.Proofs.ProvenQuery.Soundness
import ChainKeys.Proofs.BitArray
import ChainKeys.Proofs.HeaderWait.Safety
import ChainKeys.Proofs.Multisig.Acceptance
import ChainKeys.Proofs.Multisig.Combine
import ChainKeys.Proofs.Multisig.Signing
import ChainKeys.Proofs.Amino.RoundTrip
import ChainKeys.Proofs.HeaderWait.Progress
import ChainKeys.Proofs.ProvenQuery.Scheduling
import ChainKeys.Proofs.Wire
import ChainKeys.Proofs.Merkle.Messages
import ChainKeys.Proofs.Merkle.Shape
import ChainKeys.Proofs.Merkle.Completeness
import ChainKeys.Proofs.ProvenQuery.Completeness
import ChainKeys.Proofs.Multisig.Order
import ChainKeys.Proofs.Multisig.Counting
import ChainKeys.Proofs.ProvenQuery.Heights
import ChainKeys.Proofs.Bech32.Bits
import ChainKeys.Proofs.Bech32.Checksum
import ChainKeys.Proofs.Utf8
import ChainKeys.Proofs.Bech32.Prefix
import ChainKeys.Proofs.Bech32.RoundTrip
import ChainKeys.Proofs.KeyText
import ChainKeys.Proofs.Base64
import ChainKeys.Proofs.Decimal
import ChainKeys.Proofs.Json.Scalars
import ChainKeys.Proofs.Json.RoundTrip
import ChainKeys.Proofs.KeyJson
import ChainKeys.Proofs.KeyAny
import ChainKeys.Proofs.Hex
import ChainKeys.Proofs.Bech32.Reading
import ChainKeys.Proofs.Address
import ChainKeys.Proofs.Bech32.LetterCase
import ChainKeys.Proofs.KeyAddress
import ChainKeys.Proofs.Bech32.Canonical
import ChainKeys.Proofs.KeyText.Spelling
import ChainKeys.Proofs.MultisigWire
import ChainKeys.Proofs.HeaderWait.Polling
import ChainKeys.Proofs.Lookup
import ChainKeys.Proofs.Command.Combine
import ChainKeys.Proofs.Rpc.Bodies
import ChainKeys.Proofs.Toml.Document
import ChainKeys.Proofs.Home
import ChainKeys.Proofs.Command.History
import ChainKeys.Proofs.Multisig.Layout
import ChainKeys.Proofs.Multisig.Creation
import ChainKeys.Proofs.Amino.Truncation
import ChainKeys.Proofs.Amino.Faults
import ChainKeys.Proofs.KeyAddress.Collision
import ChainKeys.Proofs.Signing
import ChainKeys.Proofs.Signing.Loading
import ChainKeys.Proofs.Bech32.Mistyped
