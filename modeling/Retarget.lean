import Retarget.Main
import Retarget.Template.Recording
import Retarget.Proofs.Template.Segments
import Retarget.Proofs.Source.RoundTrip
import Retarget.Proofs.Generation.Inputs
import Retarget.Proofs.Generation.Promoting
import Retarget.Proofs.Generation.Independent
import Retarget.Proofs.Generation.Balancing
import Retarget.Proofs.Output.Reusing
import Retarget.Proofs.Output.Losing
import Retarget.Proofs.Generation.Rendering
import Retarget.Proofs.Rule.Subsumption
import Retarget.Proofs.Rule.Idempotence
import Retarget.Proofs.Target.TableLoads
import Retarget.Proofs.Generation.Cycles
import Retarget.Proofs.Number.Reciprocal
import Retarget.Proofs.Output.Literals
import Retarget.Proofs.Naming.Family
import Retarget.Proofs.Target.Conservative
