import ChainKeys.Command.Run
import ChainKeys.Proofs.Home

/-!
The commands that edit the configuration file. Each carries out its edit and fails if the edit
does, so that what the file holds after any series of them can be told from the commands alone.
-/

namespace ChainKeys

open Home (Edit)

def Home.Edit.command : Edit → Command
  | .init overwrite => .initConfig overwrite
  | .set key value => .setConfig key value

namespace Command

variable (ask : QueryPlan → Except ProvenQuery.Error ProvenQuery.Value) (name : String)

end Command

end ChainKeys
