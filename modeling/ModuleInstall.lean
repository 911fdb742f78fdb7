import ModuleInstall.Main
import ModuleInstall.Rehearsal.Compiler
import ModuleInstall.Proofs.Refinement.Run
import ModuleInstall.Proofs.Ending
import ModuleInstall.Proofs.Crossing
import ModuleInstall.Proofs.Collisions
import ModuleInstall.Proofs.Singly
import ModuleInstall.Proofs.Accounting
import ModuleInstall.Proofs.Respelling
import ModuleInstall.Proofs.Reinstall
import ModuleInstall.Proofs.Relating
import ModuleInstall.Proofs.Containment
import ModuleInstall.Proofs.Establishing
import ModuleInstall.Proofs.Copying
import ModuleInstall.Proofs.Finishing
import ModuleInstall.Proofs.Rejection
import ModuleInstall.Proofs.Narration
import ModuleInstall.Proofs.Summary
import ModuleInstall.Proofs.Safekeeping
import ModuleInstall.Proofs.Splitting
import ModuleInstall.Proofs.Designation
import ModuleInstall.Proofs.Unwritten
import ModuleInstall.Proofs.Sparing
import ModuleInstall.Proofs.Starting
import ModuleInstall.Proofs.Notes
import ModuleInstall.Proofs.Precedence
