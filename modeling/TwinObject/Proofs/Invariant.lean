/-
What holds of every state that can be reached.
-/
import TwinObject.Proofs.Accounts
import TwinObject.Proofs.Classes
import TwinObject.Proofs.Containers
import TwinObject.Proofs.Homes
import TwinObject.Proofs.Hooks
import TwinObject.Proofs.Items
import TwinObject.Proofs.Names
import TwinObject.Proofs.Overrides

namespace TwinObject

structure Invariant (w : World) (R : Hold) : Prop where
  accounts : Accounts w R
  contained : Contained w R
  classed : Classed w R
  formed : Formed w R
  balanced : Balanced w R
  remembered : Remembered w
  typed : Typed w
  homed : Homed w
  tidied : Tidied w
  listed : Listed w

namespace Invariant

variable {w w' : World} {R R' : Hold}

theorem initial : Invariant .initial 0 where
  accounts := .initial
  contained := .initial
  classed := .initial
  formed := .initial
  balanced := .initial
  remembered := .initial
  typed := .initial
  homed := .initial
  tidied := .initial
  listed := .initial

theorem step (hi : Invariant w R) (hstep : Transition w R w' R') : Invariant w' R' where
  accounts := hi.accounts.step hi.contained.names hstep
  contained := hi.contained.step hstep
  classed := hi.classed.step hstep
  formed := hi.formed.step hstep
  balanced := hi.balanced.step hi.formed hstep
  remembered := hi.remembered.step hstep
  typed := hi.typed.step hstep
  homed := hi.homed.step hstep
  tidied := hi.tidied.step hstep
  listed := hi.listed.step hstep

theorem alike (hi : Invariant w R) (halike : w.Alike w') : Invariant w' R where
  accounts := hi.accounts.alike halike
  contained := hi.contained.alike halike
  classed := hi.classed.alike halike
  formed := hi.formed.alike halike
  balanced := hi.balanced.alike halike
  remembered := hi.remembered.alike halike
  typed := hi.typed.alike halike
  homed := hi.homed.alike halike
  tidied := hi.tidied.alike halike
  listed := hi.listed.alike halike

end Invariant

theorem Reachable.invariant {w : World} {R : Hold} (hreach : Reachable w R) : Invariant w R := by
  induction hreach with
  | initial => exact .initial
  | step hreach hstep ih => exact ih.step hstep
  | turn hreach halike ih => exact ih.alike halike

end TwinObject
