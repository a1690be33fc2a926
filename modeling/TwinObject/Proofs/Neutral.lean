/-
Calls leave all locks as they found them.  However deep they are nested and whatever
way they end, the thread that makes them is as deep in every lock afterwards as it was
before.  Bodies of dynamic code are entered with the lock of the instance's interpreter,
and open gates are passed without the lock.
-/
import TwinObject.Proofs.Filling
import TwinObject.Proofs.History

namespace TwinObject

open Hold

namespace World

/-- The threads that were started, apart from the one that runs. -/
def others (w : World) : Set ThreadId :=
  {t | t < w.nextThread ∧ t ≠ w.currentThread}

/-- Whether the same thread runs in two worlds, as deep in every lock. -/
structure Level (w u : World) : Prop where
  running : u.currentThread = w.currentThread
  depths : ∀ i, u.depthIn i = w.depthIn i

theorem Level.refl (w : World) : w.Level w :=
  ⟨rfl, fun _ => rfl⟩

theorem Returns.level {O O' : Set ThreadId} {w u : World} (hreturns : w.Returns O O' u)
    (hapart : w.Apart O) : w.Level u :=
  ⟨hreturns.running, hreturns.depthIn hapart⟩

/-- A turn of another thread that spares all but itself is one that code which waits can
live with. -/
theorem Turns.of_spares {w u : World} {other : ThreadId} (hother : other ≠ w.currentThread)
    (hknown : w.currentThread < w.nextThread) (hstarted : w.nextThread ≤ u.nextThread)
    (hspares : (w.onThread other).Spares (w.onThread other).others u) :
    w.Turns w.others (u.onThread w.currentThread) where
  running := rfl
  started := hstarted
  depths t ht hlt i := by
    have hmine : t = w.currentThread := by
      by_contra hne
      exact ht ⟨hlt, hne⟩
    subst hmine
    exact hspares _ ⟨hknown, hother.symm⟩ i

end World

namespace Attained

variable {w : World} {R : Hold}

theorem inOrder (hattained : Attained w R) : w.InOrder :=
  hattained.reached fun _ hreach => hreach.invariant.homed.inOrder

theorem apart_others (hattained : Attained w R) : w.Apart w.others where
  mine := fun hmem => hmem.2 rfl
  known := hattained.reached fun _ hreach => hreach.invariant.homed.seated.known
  theirs := fun _ ht => ht.1

end Attained

/-- Whether a course from a world on keeps the locks of all threads: what it does does
not touch the depths of the others, and at its end the thread that began in `start` runs
again, as deep in every lock as there.  Where the course waits, the others may do with
their depths what they like.  Wherever it has got to, bodies were entered with the lock
and gates passed without it. -/
inductive Course.KeepsLocks {ε α : Type} (F : Hold) (start : World) :
    Set ThreadId → World → Course ε α → Prop
  | ended {e : Ending ε α} {O : Set ThreadId} {w u : World} (hspares : w.Spares O u)
      (horder : u.InOrder) (hlevel : start.Level u) : KeepsLocks F start O w (.ended e u)
  | exhausted {O : Set ThreadId} {w u : World} : KeepsLocks F start O w (.exhausted u)
  | paused {held : List Token} {O : Set ThreadId} {w u : World} {ready : World → Option World}
      {next : World → Course ε α} (hspares : w.Spares O u) (horder : u.InOrder)
      (hnext : ∀ (E : Hold) (v v' : World), Attained v (E + F + ↑held) → Persists u v →
        0 < v.threads.size → u.Turns O v → ready v = some v' →
          KeepsLocks F start (u.joined O v) v (next v')) :
      KeepsLocks F start O w (.paused held u ready next)

theorem Course.Runs.keepsLocks {ε α : Type} {F E : Hold} {give : α → Hold}
    {post : α → World → Prop} {O₀ O : Set ThreadId} {start w : World} {c c' : Course ε α}
    (hapart : start.Apart O₀)
    (hruns : c.Runs True F (Ending.Finishes True F give post O₀ start) O w E c') :
    c.KeepsLocks F start O w := by
  induction hruns with
  | @ended e O w u E hpersists hspares hend =>
      obtain ⟨hleaves, hreturns⟩ := hend
      have horder : u.InOrder := by
        cases e with
        | value a => exact hleaves.1.inOrder
        | raised e => exact Attained.inOrder hleaves
        | panicked text => exact hleaves.1.inOrder
      exact .ended (hspares trivial) horder ((hreturns trivial).level hapart)
  | exhausted => exact .exhausted
  | paused hpersists hspares hattained hnext ih =>
      apply KeepsLocks.paused (hspares trivial) hattained.inOrder
      intro E v v' hthere hlater hthreads hturns hready
      exact ih E v v' hthere hlater hthreads (fun _ => hturns) hready

/-- Whether code keeps the locks of all threads, with what is lent to it. -/
def Run.KeepsLocks {ε α : Type} (F : Hold) (w : World) (m : Run ε α) : Prop :=
  ∀ E, Attained w (E + F) → (m w).KeepsLocks F w w.others w

theorem Run.Ensures.keepsLocks {ε α : Type} {F : Hold} {give : α → Hold}
    {post : α → World → Prop} {w : World} {m m' : Run ε α}
    (hm : Run.Ensures F 0 give post w m m') : m.KeepsLocks F w := by
  intro E hattained
  have hapart := hattained.apart_others
  have hthere : Attained w (E + F + 0) := hattained.cast (add_zero _)
  exact (hm True w.others E (fun _ => hapart) hthere).keepsLocks hapart

/-- Whether all calls that a host runs keep the locks, with the instance, the class and the
arguments that are lent to them. -/
structure Host.CallsKeepLocks (h : Host) (F : Hold) (w : World) : Prop where
  /-- From native code: virtual calls, which run overrides, and calls past them. -/
  virtual : ∀ (constOnly : Bool) (t : TwinId) (name : String) (args : List NativeValue),
    Lends F t → LendsAll F (args.flatMap NativeValue.handles) →
      (Call.callVirtual h constOnly t name args).KeepsLocks F w
  direct : ∀ (t : TwinId) (name : String) (args : List NativeValue), Lends F t →
    LendsAll F (args.flatMap NativeValue.handles) →
      (Call.callMethodNative h t name args).KeepsLocks F w
  base : ∀ (t : TwinId) (c : NativeClass) (name : String) (args : List NativeValue), Lends F t →
    LendsAll F (args.flatMap NativeValue.handles) →
      (Call.callBaseNative h t c name args).KeepsLocks F w
  free : ∀ (f : NativeFunction) (args : List NativeValue),
    LendsAll F (args.flatMap NativeValue.handles) → (Call.invoke h f args).KeepsLocks F w
  /-- From dynamic code: methods of either side, base calls and free functions, behind gates
  that are open or shut. -/
  method : ∀ (t : TwinId) (name : String) (args : List DynValue), Lends F t →
    LendsAll F (args.flatMap DynValue.handles) → (Call.callMethod h t name args).KeepsLocks F w
  native : ∀ (t : TwinId) (name : String) (args : List DynValue), Lends F t →
    LendsAll F (args.flatMap DynValue.handles) →
      (Call.callNativeMethod h t name args).KeepsLocks F w
  dynamicBase : ∀ (t : TwinId) (c : NativeClass) (name : String) (args : List DynValue), Lends F t →
    LendsAll F (args.flatMap DynValue.handles) →
      (Call.callBaseDynamic h t c name args).KeepsLocks F w
  function : ∀ (i : InterpId) (f : NativeFunction) (args : List DynValue),
    LendsAll F (args.flatMap DynValue.handles) → (Call.callFunction h i f args).KeepsLocks F w
  gated : ∀ (i : InterpId) (g : Gate) (f : NativeFrame) (body : NativeExpr), f.Lent F w →
    (Call.gated i g (h.native f body)).KeepsLocks F w
  /-- New instances, of classes of either side. -/
  instantiate : ∀ (c : DynamicClass) (args : List DynValue), Token.kind (.dynamic c) ∈ F →
    LendsAll F (args.flatMap DynValue.handles) →
      (Construction.newDynamic h c args).KeepsLocks F w
  construct : ∀ (c : NativeClass) (i : InterpId) (args : List DynValue),
    Token.kind (.native c) ∈ F → i < w.interps.size → LendsAll F (args.flatMap DynValue.handles) →
      (Construction.instantiate h c i args).KeepsLocks F w

theorem Host.Safe.callsKeepLocks {h h' : Host} (hsafe : h.Safe h') (F : Hold) (w : World) :
    h.CallsKeepLocks F w where
  virtual constOnly _ name _ hlent hargs :=
    (Call.callVirtual_safe hsafe constOnly hlent name hargs).keepsLocks
  direct _ name _ hlent hargs := (Call.callMethodNative_safe hsafe hlent name hargs).keepsLocks
  base _ c name _ hlent hargs := (Call.callBaseNative_safe hsafe hlent c name hargs).keepsLocks
  free f _ hargs := (Call.invoke_safe hsafe f hargs).keepsLocks
  method _ name _ hlent hargs := (Call.callMethod_safe hsafe hlent name hargs).keepsLocks
  native _ name _ hlent hargs := (Call.callNativeMethod_safe hsafe hlent name hargs).keepsLocks
  dynamicBase _ c name _ hlent hargs :=
    (Call.callBaseDynamic_safe hsafe hlent c name hargs).keepsLocks
  function i f _ hargs := (Call.callFunction_safe hsafe i f hargs).keepsLocks
  gated i g f body hframe :=
    (Call.gated_safe i g fun u hu => hsafe.native F u f body (hframe.mono hu)).keepsLocks
  instantiate _ _ hkind hargs := (Construction.newDynamic_safe hsafe hkind hargs).keepsLocks
  construct _ _ _ hkind hinterp hargs :=
    (Construction.instantiate_safe hsafe hkind hinterp hargs).keepsLocks

/-- Whether a piece of code, called from a world, starts in the same thread without a
lock, as deep in all the others, and whatever end it comes to, what is left to do is to
come back to the depth from before. -/
def Run.Outside (i : InterpId) (w : World) (called m : Run Failure NativeValue) : Prop :=
  ∃ v, v.currentThread = w.currentThread
    ∧ (∀ j, v.depthIn j = if j = i then 0 else w.depthIn j)
    ∧ called w = (m v).andThen [] fun e =>
        Run.thenDo (e.held (·.handles.map .handle)) (Run.resume i (w.depthIn i) : Run Failure Unit)
          fun _ => Run.again e

theorem Call.gated_open (i : InterpId) {g : Gate} (m : Run Failure NativeValue) {w : World}
    (hopen : w.releases g = true) : Run.Outside i w (Call.gated i g m) m := by
  let counted := w.count i fun n => { n with gated := n.gated + 1 }
  have hcalm : w.Calm counted := .modifyInterp w i fun _ => rfl
  have hleft : counted.Moves i 0 (World.leaveLock i counted).2 := .left counted i
  have hdepth : (World.leaveLock i counted).1 = w.depthIn i :=
    ((counted.lock i).snd_suspend counted.currentThread).trans (hcalm.depthIn i)
  refine ⟨(World.leaveLock i counted).2.passGate i, rfl, fun j => ?_, ?_⟩
  · have hpassed : ((World.leaveLock i counted).2.passGate i).depthIn j
        = (World.leaveLock i counted).2.depthIn j := rfl
    rw [hpassed, World.depthIn, hleft.depths, hleft.running]
    simp only [true_and]
    split
    · rfl
    · exact hcalm.depthIn j
  · rw [← hdepth]
    unfold Call.gated
    rw [Run.reads_then (f := (·.releases g)) hopen]
    rfl

/-- A shut gate makes no difference. -/
theorem Call.gated_shut (i : InterpId) {g : Gate} (m : Run Failure NativeValue) {w : World}
    (hshut : w.releases g = false) : Call.gated i g m w = m w := by
  unfold Call.gated
  rw [Run.reads_then (f := (·.releases g)) hshut]
  rfl

section Sessions

open Session

/-- A step that evaluates code leaves the locks as they were, or is never answered. -/
theorem Run.KeepsLocks.level {ε : Type} {w : World} {R : Hold} {m : Run ε Report}
    {raised : ε → Answer} (hkeeps : m.KeepsLocks 0 w) (hattained : Attained w R) :
    (Answer.ofCourse (fun r => pure (.ok r)) raised m w).1 = .stuck
      ∨ w.Level (Answer.ofCourse (fun r => pure (.ok r)) raised m w).2 := by
  have hcourse := hkeeps R (hattained.cast (add_zero R))
  unfold Answer.ofCourse
  generalize m w = c at hcourse
  cases hcourse with
  | @ended e _ _ u hspares horder hlevel =>
      cases e with
      | value r => exact Or.inr hlevel
      | raised e => exact Or.inr hlevel
      | panicked text => exact Or.inl rfl
  | exhausted => exact Or.inl rfl
  | paused => exact Or.inl rfl

/-- A session in which a step waits for no thread is where the step left it. -/
theorem Session.level_after {h : Host} {steps : List Step} {st : Step}
    (hfree : awaited? (after h steps).world st = none)
    (hlevel : (st.perform h (after h steps).world).1 = .stuck
      ∨ (after h steps).world.Level (st.perform h (after h steps).world).2) :
    (after h steps).world.Level (after h (steps ++ [st])).world := by
  have hlast : after h (steps ++ [st]) = (advance h st (after h steps)).2 := by
    rw [after_append, List.mapM_cons, List.mapM_nil]
    rfl
  rw [hlast, advance, hfree]
  dsimp only [Option.elim_none]
  generalize st.perform h (after h steps).world = e at hlevel
  obtain ⟨answer, u⟩ := e
  cases answer with
  | stuck => exact .refl _
  | _ => exact hlevel.resolve_left (by simp)

variable (depth : Nat) (steps : List Step) (x : Option String)

theorem Session.level_evalDyn (e : DynExpr) : (after (.nested .memo depth) steps).world.Level
    (after (.nested .memo depth) (steps ++ [.evalDyn e x])).world := by
  have hsafe := Host.nested_safe Dispatcher.memo.noSlot Dispatcher.memo.bare depth
  apply level_after rfl
  exact (Step.evalDyn_safe hsafe e x).keepsLocks.level (attained_after depth steps)

theorem Session.level_evalNative (e : NativeExpr) : (after (.nested .memo depth) steps).world.Level
    (after (.nested .memo depth) (steps ++ [.evalNative e x])).world := by
  have hsafe := Host.nested_safe Dispatcher.memo.noSlot Dispatcher.memo.bare depth
  apply level_after rfl
  exact (Step.evalNative_safe hsafe e x).keepsLocks.level (attained_after depth steps)

end Sessions

open Session in
/-- Calls of every form, nested to any depth, leave the thread as deep in every lock as it
was, whether they end with a value, an error or a panic, and do not touch the depths of
other threads, which is all that they need of others while they wait.  Wherever they have
got to, bodies of dynamic code were entered with the lock of the instance's interpreter,
and gates were passed without the lock: whatever runs behind an open gate starts outside
the lock, and comes back to the old depth, while a shut gate makes no difference.  A gate is
open or shut as it was set last.  So it is after every history of a session, and code that the
session evaluates then changes no depth. -/
theorem calls_keep_locks (depth : Nat) :
    (∀ (F : Hold) (w : World), (Host.nested .memo depth).CallsKeepLocks F w)
    ∧ (∀ (w u : World) (other : ThreadId), other ≠ w.currentThread →
      w.currentThread < w.nextThread → w.nextThread ≤ u.nextThread →
        (w.onThread other).Spares (w.onThread other).others u →
          w.Turns w.others (u.onThread w.currentThread))
    ∧ (∀ (i : InterpId) (g : Gate) (m : Run Failure NativeValue) (w : World),
      (w.releases g = true → Run.Outside i w (Call.gated i g m) m)
      ∧ (w.releases g = false → Call.gated i g m w = m w)
      ∧ ∀ (set : Gate) (release : Bool),
        (w.setGate set release).releases g = if g = set then release else w.releases g)
    ∧ ∀ steps : List Step,
      let w := (after (.nested .memo depth) steps).world
      w.InOrder
      ∧ (∀ (e : DynExpr) (x : Option String),
        w.Level (after (.nested .memo depth) (steps ++ [.evalDyn e x])).world)
      ∧ ∀ (e : NativeExpr) (x : Option String),
        w.Level (after (.nested .memo depth) (steps ++ [.evalNative e x])).world := by
  refine ⟨fun F w => ?_, fun w u other hother hknown hstarted hspares => ?_,
    fun i g m w => ⟨Call.gated_open i m, Call.gated_shut i m, fun set => w.releases_setGate set g⟩,
    fun steps => ?_⟩
  · have hsafe := Host.nested_safe Dispatcher.memo.noSlot Dispatcher.memo.bare depth
    exact hsafe.callsKeepLocks F w
  · exact World.Turns.of_spares hother hknown hstarted hspares
  · refine ⟨(attained_after depth steps).inOrder, fun e x => ?_, fun e x => ?_⟩
    · exact level_evalDyn depth steps x e
    · exact level_evalNative depth steps x e

end TwinObject
