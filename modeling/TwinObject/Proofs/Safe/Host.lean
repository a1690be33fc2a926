/-
Safe hosts.  A host that remembers the overrides it found runs bodies side by
side with one that looks every override up afresh.  What a frame refers to is
lent to the body that runs in it.
-/
import TwinObject.Proofs.Safe.Scope

namespace TwinObject

open Hold

/-- A dispatcher that looks every override up afresh.  What is remembered has no
say in that; it is kept for those who ask how many slots are known. -/
def Dispatcher.fresh (noSlot : Kind → Nat → Run Failure NativeValue)
    (bare : Slot → Run Failure NativeValue) : Dispatcher where
  override c index slot w := (c.override? slot, (World.lookupOverride c index slot w).2)
  noSlot := noSlot
  bare := bare

/-- Whether all that a native frame refers to is lent, and its constructor fills a
segment of its twin. -/
structure NativeFrame.Lent (F : Hold) (w : World) (f : NativeFrame) : Prop where
  this : ∀ t, f.this = some t → Lends F t
  args : LendsAll F (f.args.flatMap NativeValue.handles)
  site : ∀ s, f.site = some s → Lends F s.twin ∧ s.Fits w

namespace NativeFrame.Lent

variable {F : Hold} {w u : World} {f : NativeFrame}

theorem left (hlent : Lent F w f) (G : Hold) : Lent (F + G) w f where
  this t ht := (hlent.this t ht).left
  args := hlent.args.left
  site s hs := (hlent.site s hs).imp Lends.left id

theorem mono (hlent : Lent F w f) (hpersists : Persists w u) : Lent F u f where
  this := hlent.this
  args := hlent.args
  site s hs := (hlent.site s hs).imp id fun hfits => hfits.mono hpersists

end NativeFrame.Lent

/-- Whether all that a dynamic frame refers to is lent. -/
structure DynFrame.Lent (F : Hold) (f : DynFrame) : Prop where
  this : ∀ t, f.this = some t → Lends F t
  args : LendsAll F (f.args.flatMap DynValue.handles)

theorem DynFrame.Lent.left {F : Hold} {f : DynFrame} (hlent : Lent F f) (G : Hold) :
    Lent (F + G) f where
  this t ht := (hlent.this t ht).left
  args := hlent.args.left

/-- Whether a host that remembers overrides and one that does not run all bodies
alike, and safely. -/
structure Host.Safe (h h' : Host) : Prop where
  remembers : h.dispatcher = .memo
  forgets : ∃ noSlot bare, h'.dispatcher = .fresh noSlot bare
  native : ∀ (F : Hold) (w : World) (f : NativeFrame) (e : NativeExpr), f.Lent F w →
    Run.Safe F 0 NativeValue.hold w (h.native f e) (h'.native f e)
  /-- A dynamic body is entered by a thread that holds the lock of the instance's
  interpreter, or goes on with another body. -/
  dynamic : ∀ (F : Hold) (w : World) (entry : Entry) (t : TwinId) (args : List DynValue)
    (e : DynExpr), Lends F t → LendsAll F (args.flatMap DynValue.handles) →
      (entry ≠ .chained → 0 < w.depthIn (w.twin t).interp) →
        Run.Safe F 0 DynValue.hold w (h.dynamic entry t args e) (h'.dynamic entry t args e)

/-- Hosts that run nothing are safe. -/
theorem Host.safe_exhausted (noSlot : Kind → Nat → Run Failure NativeValue)
    (bare : Slot → Run Failure NativeValue) :
    Host.Safe (exhausted .memo) (exhausted (.fresh noSlot bare)) where
  remembers := rfl
  forgets := ⟨noSlot, bare, rfl⟩
  native _ _ _ _ _ := .exhausted
  dynamic _ _ _ _ _ _ _ _ _ := .exhausted

namespace Run.Ensures

variable {ε α β : Type} {F take : Hold} {give : α → Hold} {give' : β → Hold}
  {post : α → World → Prop} {post' : β → World → Prop} {w : World} {m m' : Run ε α}
  {k k' : α → Run ε β}

/-- Code may be replaced by code that does the same in the world at hand. -/
theorem congr_right {m'' : Run ε α} (hm : Ensures F take give post w m m') (heq : m'' w = m' w) :
    Ensures F take give post w m m'' :=
  fun P O E hapart hattained => heq ▸ hm P O E hapart hattained

/-- What a body gives is let go. -/
theorem dropping {v : α} {hs : List Handle} (hv : give v = ofHandles hs) :
    Safe (ε := ε) F (give v) (fun _ => 0) w (Run.modify (·.drop hs)) (Run.modify (·.drop hs)) := by
  rw [hv]
  exact modify (fun R _ => (Path.drop hs).cast rfl (add_zero _)) fun _ => trivial

end Run.Ensures

end TwinObject
