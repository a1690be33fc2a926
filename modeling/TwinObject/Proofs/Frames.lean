/-
What a failure says after it crossed frames of dynamic code.  In each of them it is raised as
an exception, which native code above captures again.  Its type and its message arrive as
they were, and so does its text, except that the text of an exception in flight leaves out
an empty message.
-/
import TwinObject.Proofs.Exceptions

namespace TwinObject

/-- The text of an exception in flight is its full text unless the message is empty. -/
theorem Thrown.what_eq_text_iff (t : Thrown) : t.what = t.text ↔ t.message ≠ "" := by
  by_cases hmessage : t.message = ""
  · -- What is left out is the colon, which an empty message does not make up for.
    have hlonger : t.kind ≠ t.text := fun heq => by
      have hlength : t.kind.length = t.kind.length + ": ".length + t.message.length := by
        simpa [text] using congrArg String.length heq
      have hcolon : ": ".length = 2 := rfl
      omega
    simpa [what, hmessage] using hlonger
  · simp [what, hmessage]

namespace Failure

@[simp] theorem kind_raise (f : Failure) : f.raise.kind = f.kindName := by
  cases f <;> rfl

/-- A failure of native code shows its message even if that is empty. -/
theorem what_eq_text {f : Failure} (hnative : f.isPropagated = false) :
    f.what = f.raise.text := by
  cases f <;> first | rfl | cases hnative

/-- A failure that crosses one frame of dynamic code. -/
def cross (f : Failure) : Failure :=
  f.raise.capture

/-- A failure that crosses so many frames, one after the other. -/
def crossed (f : Failure) : Nat → Failure
  | 0 => f
  | n + 1 => (f.crossed n).cross

@[simp] theorem raise_crossed (f : Failure) (n : Nat) : (f.crossed n).raise = f.raise := by
  induction n with
  | zero => rfl
  | succ n ih => rw [crossed, cross, Thrown.raise_capture, ih]

/-- After the first frame nothing changes any more. -/
theorem crossed_succ (f : Failure) (n : Nat) : f.crossed (n + 1) = f.raise.capture := by
  rw [crossed, cross, raise_crossed]

@[simp] theorem kindName_crossed (f : Failure) (n : Nat) :
    (f.crossed n).kindName = f.kindName := by
  rw [← kind_raise, raise_crossed, kind_raise]

theorem what_crossed_succ (f : Failure) (n : Nat) : (f.crossed (n + 1)).what = f.raise.what := by
  rw [crossed_succ]
  rfl

/-- A failure keeps its text unless it was not an exception yet and its message is empty. -/
theorem what_crossed_iff (f : Failure) (n : Nat) :
    (f.crossed n).what = f.what ↔ n = 0 ∨ f.isPropagated ∨ f.raise.message ≠ "" := by
  cases n with
  | zero => simp [crossed]
  | succ n =>
      rw [what_crossed_succ]
      cases hnative : f.isPropagated with
      | false =>
          rw [what_eq_text hnative, Thrown.what_eq_text_iff]
          simp
      | true =>
          obtain ⟨t, rfl⟩ : ∃ t, f = .propagated t := by
            cases f <;> first | exact ⟨_, rfl⟩ | cases hnative
          exact iff_of_true rfl (.inr (.inl rfl))

/-- Whether the words of a failure are the program's own alone. -/
def isWorded : Failure → Bool
  | propagated _ | native .. | constructionAccess _ => true
  | _ => false

theorem text_ne_empty {f : Failure} (hfixed : f.isWorded = false) : f.text ≠ "" := by
  have first {s t : String} (hs : s ≠ "") : s ++ t ≠ "" :=
    fun hempty => hs (String.append_eq_empty_iff.mp hempty).1
  have last {s t : String} (ht : t ≠ "") : s ++ t ≠ "" :=
    fun hempty => ht (String.append_eq_empty_iff.mp hempty).2
  cases f with
  | abstractInstantiation c m => exact last (by simp)
  | abstractMethod c m => exact last (by simp)
  | typeMismatch ctx e g => exact first (last (by simp))
  | incompatibleSignature m reason => exact first (last (by simp))
  | noSuchMethod c m => exact last (by simp)
  | noSuchAttribute c n => exact last (by simp)
  | copyUnavailable c op => exact last (by simp)
  | constViolation c m => exact last (by simp)
  | unsupportedComposition reason => exact first (by simp)
  | _ => cases hfixed

/-- Only what a program words itself can be without a message: reasons that a constructor is
out of reach, native errors and exceptions. -/
theorem message_raise_eq_empty_iff (f : Failure) :
    f.raise.message = ""
      ↔ f = .constructionAccess "" ∨ (∃ kind, f = .native kind "")
        ∨ ∃ kind, f = .propagated ⟨kind, ""⟩ := by
  cases hworded : f.isWorded with
  | false =>
      have hmessage : f.raise.message = f.text := by
        cases f <;> first | rfl | cases hworded
      rw [hmessage]
      refine iff_of_false (text_ne_empty hworded) ?_
      rintro (rfl | ⟨kind, rfl⟩ | ⟨kind, rfl⟩) <;> cases hworded
  | true =>
      cases f with
      | propagated t =>
          obtain ⟨kind, message⟩ := t
          simp [raise]
      | native kind message => simp [raise]
      | constructionAccess reason =>
          change reason = "" ↔ _
          simp
      | _ => cases hworded

end Failure

variable {ε ε' α β : Type}

/-- Whether a course has only one way to end.  It may wait before, and calls may be nested too
deep. -/
inductive Course.EndsAs (e : Ending ε α) : Course ε α → Prop
  | ended (w : World) : EndsAs e (.ended e w)
  | paused {held : List Token} {w : World} {ready : World → Option World}
      {next : World → Course ε α} (hnext : ∀ v v', ready v = some v' → EndsAs e (next v')) :
      EndsAs e (.paused held w ready next)
  | exhausted (w : World) : EndsAs e (.exhausted w)

theorem Course.EndsAs.andThen {e : Ending ε α} {e' : Ending ε' β} {c : Course ε α}
    {held : List Token} {next : Ending ε α → World → Course ε' β} (hc : c.EndsAs e)
    (hnext : ∀ w, (next e w).EndsAs e') : (c.andThen held next).EndsAs e' := by
  induction hc with
  | ended w => exact hnext w
  | paused _ ih => exact .paused ih
  | exhausted w => exact .exhausted w

namespace Run

variable {m : Run ε α} {w : World} {e : Ending ε α} {f : ε}

theorem endsAs_bind {k : α → Run ε β} (hm : (m w).EndsAs (.raised f)) :
    ((m >>= k) w).EndsAs (.raised f) :=
  hm.andThen fun u => .ended u

theorem endsAs_mapError (seen : ε → ε') (hm : (m w).EndsAs (.raised f)) :
    ((mapError seen m) w).EndsAs (.raised (seen f)) :=
  hm.andThen fun u => .ended u

theorem endsAs_retaining {hs : List Handle} (hm : (m (w.retainAll hs)).EndsAs e) :
    ((retaining hs m) w).EndsAs e :=
  hm.andThen fun u => .ended (u.drop hs)

end Run

/-- Native code that is called through so many frames of dynamic code. -/
def NativeExpr.framed (e : NativeExpr) : Nat → NativeExpr
  | 0 => e
  | n + 1 => .dynamic (.native (e.framed n))

/-- The world in which native code starts that is called through so many frames: each of them
holds the instance that it runs on, and so does the native code called in it. -/
def World.framed (w : World) (this : Option TwinId) : Nat → World
  | 0 => w
  | n + 1 => ((w.retainAll (this.toList.map .dynamic)).retainAll
      (this.toList.map .native)).framed this n

/-- A failure crosses every frame through which the code that fails was called. -/
theorem NativeExpr.endsAs_framed (h : Host) (this : Option TwinId) (e : NativeExpr) {f : Failure}
    (n : Nat) {w : World} (hfails : (e.eval h { this } (w.framed this n)).EndsAs (.raised f)) :
    ((e.framed n).eval h { this } w).EndsAs (.raised (f.crossed n)) := by
  induction n generalizing w with
  | zero => exact hfails
  | succ n ih =>
      have hraised : ((DynExpr.native (e.framed n)).eval h { this }
          (w.retainAll (this.toList.map .dynamic))).EndsAs (.raised (f.crossed n).raise) := by
        rw [DynExpr.eval]
        exact Run.endsAs_retaining (Run.endsAs_mapError Failure.raise (Run.endsAs_bind (ih hfails)))
      rw [framed, NativeExpr.eval, Failure.crossed, Failure.cross]
      have hcaptured := Run.endsAs_mapError Thrown.capture hraised
      exact Run.endsAs_retaining (Run.endsAs_bind hcaptured)

/-- What a native caller is told who catches an error. -/
theorem NativeExpr.endsAs_attempt (h : Host) (frame : NativeFrame) (e : NativeExpr) {f : Failure}
    {w : World} (hfails : (e.eval h frame w).EndsAs (.raised f)) :
    ((NativeExpr.attempt e).eval h frame w).EndsAs (.value (.str ("caught " ++ f.what))) := by
  rw [NativeExpr.eval]
  have hcaught : ((Run.outcome (e.eval h frame) : Run Failure (Except Failure NativeValue))
      w).EndsAs (.value (.error f)) := hfails.andThen fun u => .ended u
  exact hcaught.andThen fun u => .ended (u.record [.caught])

/-- Failures cross frames of dynamic code.  However many there are, the type and the message
stay as they were.  So does the text, if the failure was an exception before or has a message;
else the text is the type alone, from the first frame on, and that is the case only of errors
that are worded by the program.  Code that fails behind so many frames fails so for its
caller, and that is what a native caller who catches it is told. -/
theorem failures_cross_frames (f : Failure) (n : Nat) :
    ((f.crossed n).kindName = f.kindName ∧ (f.crossed n).raise = f.raise)
      ∧ ((f.crossed n).what = f.what ↔ n = 0 ∨ f.isPropagated ∨ f.raise.message ≠ "")
      ∧ (f.crossed (n + 1)).what
          = (if f.raise.message = "" then f.kindName else f.kindName ++ ": " ++ f.raise.message)
      ∧ (f.raise.message = "" ↔ f = .constructionAccess "" ∨ (∃ kind, f = .native kind "")
          ∨ ∃ kind, f = .propagated ⟨kind, ""⟩)
      ∧ ∀ (h : Host) (this : Option TwinId) (e : NativeExpr) (w : World),
          (e.eval h { this } (w.framed this n)).EndsAs (.raised f) →
            ((e.framed n).eval h { this } w).EndsAs (.raised (f.crossed n))
              ∧ ((NativeExpr.attempt (e.framed n)).eval h { this } w).EndsAs
                  (.value (.str ("caught " ++ (f.crossed n).what))) := by
  refine ⟨⟨f.kindName_crossed n, f.raise_crossed n⟩, f.what_crossed_iff n, ?_,
    f.message_raise_eq_empty_iff, fun h this e w hfails => ?_⟩
  · simp only [Failure.what_crossed_succ, Thrown.what, String.isEmpty_iff, Thrown.text,
      Failure.kind_raise]
  · have hcrossed := e.endsAs_framed h this n hfails
    exact ⟨hcrossed, NativeExpr.endsAs_attempt h _ _ hcrossed⟩

/-- A native error without a message has its colon no more after one frame. -/
theorem colon_lost_in_frame :
    (Failure.native "E" "").what = "E: " ∧ ((Failure.native "E" "").crossed 1).what = "E" := by
  decide

end TwinObject
