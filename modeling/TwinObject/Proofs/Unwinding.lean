/-
Construction and its unwinding.  An attempt builds the segments of a class in storage
order.  Where it fails, those that it built are razed in reverse, although every class
that the error passes razes only the parents it has built itself; and the instance's
release, which goes backwards through its layout, razes them in the same order.
-/
import TwinObject.Proofs.Bystanders
import TwinObject.Proofs.Chronicle
import TwinObject.Proofs.Filling
import TwinObject.Proofs.Safe.Segments

namespace TwinObject

namespace NativeClass

mutual

/-- Segments are destroyed in the reverse of storage order. -/
theorem destruction_eq : (c : NativeClass) → c.destruction = c.flatten.reverse
  | ⟨_, _, parents, _, _, _, _, _, _, _⟩ => by
      rw [destruction, flatten, List.reverse_append, List.reverse_singleton,
        destructionAll_eq parents, List.singleton_append]

theorem destructionAll_eq : (cs : List NativeClass) →
    destructionAll cs = (flattenAll cs).reverse
  | [] => rfl
  | c :: cs => by
      rw [destructionAll, flattenAll, List.reverse_append, destruction_eq c, destructionAll_eq cs]

end

end NativeClass

namespace Construction

/-- One segment that a construction comes to, with the arguments for its constructor. -/
structure Job where
  site : Site
  group : ArgGroup
  fromDerived : Bool

/-- The segments of classes that lie one after another, default-constructed. -/
def defaultJobs (t : TwinId) (cs : List NativeClass) (start : Nat) : List Job :=
  (cs.zipIdx start).map fun (c, segment) => ⟨⟨t, segment, c⟩, {}, true⟩

/-- The segments of a class in storage order: all but the last are default-constructed. -/
def jobs (t : TwinId) (g : ArgGroup) (fromDerived : Bool) (c : NativeClass) (start : Nat) :
    List Job :=
  defaultJobs t (NativeClass.flattenAll c.parents) start
    ++ [⟨⟨t, start + NativeClass.segmentCounts c.parents, c⟩, g, fromDerived⟩]

theorem defaultJobs_append (t : TwinId) (cs ds : List NativeClass) (start : Nat) :
    defaultJobs t (cs ++ ds) start
      = defaultJobs t cs start ++ defaultJobs t ds (start + cs.length) := by
  rw [defaultJobs, List.zipIdx_append, List.map_append]
  rfl

/-- To default-construct a class is to default-construct its segments. -/
theorem jobs_default (t : TwinId) (c : NativeClass) (start : Nat) :
    jobs t {} true c start = defaultJobs t c.flatten start := by
  rw [NativeClass.flatten_eq, defaultJobs_append, ← NativeClass.segmentCounts_eq]
  rfl

theorem defaultJobs_classes (t : TwinId) (cs : List NativeClass) (start : Nat) :
    (defaultJobs t cs start).map (·.site.cls) = cs := by
  rw [defaultJobs, List.map_map]
  exact List.zipIdx_map_fst start cs

theorem jobs_classes (t : TwinId) (g : ArgGroup) (fromDerived : Bool) (c : NativeClass)
    (start : Nat) : (jobs t g fromDerived c start).map (·.site.cls) = c.flatten := by
  rw [jobs, List.map_append, defaultJobs_classes, NativeClass.flatten_eq]
  rfl

variable {h : Host}

/-- What filling one segment tells, and how it ends. -/
def Job.Tells (h : Host) (j : Job) (events : List Event) (e : Ending Failure Unit) : Prop :=
  ∃ w u, (constructOwn h j.site j.group j.fromDerived).Tells w events e u

/-- What is told of segments that are filled one after another, each marked as built when
that is done. -/
inductive Completed (h : Host) : List Job → List Event → Prop
  | nil : Completed h [] []
  | cons {j : Job} {jobs : List Job} {own events : List Event} (hown : j.Tells h own (.value ()))
      (hrest : Completed h jobs events) :
      Completed h (j :: jobs) (own ++ .ofBuilt j.site.cls :: events)

/-- The destruction of segments on the way of an error, the last one first.  After a value
they stay, and after a panic nobody destroys them. -/
def undoing (cs : List NativeClass) : Ending Failure Unit → List Event
  | .raised _ => cs.reverse.map Event.ofRazed
  | _ => []

theorem undoing_value (cs : List NativeClass) : undoing cs (.value ()) = [] :=
  rfl

theorem undoing_nil (e : Ending Failure Unit) : undoing [] e = [] := by
  cases e <;> rfl

theorem undoing_append (cs ds : List NativeClass) (e : Ending Failure Unit) :
    undoing (cs ++ ds) e = undoing ds e ++ undoing cs e := by
  cases e with
  | raised f => rw [undoing, List.reverse_append, List.map_append, undoing, undoing]
  | _ => rfl

/-- What an attempt to fill segments tells: those before the one at which it stops are
completed, and destroyed in reverse if that fails. -/
inductive Attempt (h : Host) (jobs : List Job) : List Event → Ending Failure Unit → Prop
  | value {events : List Event} (hall : Completed h jobs events) : Attempt h jobs events (.value ())
  | stopped {done rest : List Job} {last : Job} {events own : List Event}
      {e : Ending Failure Unit} (hjobs : jobs = done ++ last :: rest)
      (hdone : Completed h done events) (hlast : last.Tells h own e) (hnot : e ≠ .value ()) :
      Attempt h jobs (events ++ own ++ undoing (done.map (·.site.cls)) e) e

theorem Completed.append {as bs : List Job} {events later : List Event}
    (has : Completed h as events) (hbs : Completed h bs later) :
    Completed h (as ++ bs) (events ++ later) := by
  induction has with
  | nil => exact hbs
  | cons hown _ ih =>
      rw [List.append_assoc, List.cons_append]
      exact .cons hown ih

namespace Attempt

variable {as bs : List Job} {events later : List Event} {e : Ending Failure Unit}

/-- What was to come after a stop is not begun. -/
theorem left (hattempt : Attempt h as events e) (hnot : e ≠ .value ()) (bs : List Job) :
    Attempt h (as ++ bs) events e := by
  cases hattempt with
  | value hall => exact absurd rfl hnot
  | stopped hjobs hdone hlast =>
      exact .stopped (by rw [hjobs, List.append_assoc, List.cons_append]) hdone hlast hnot

/-- A failure later on destroys what was completed before as well. -/
theorem right (has : Completed h as events) (hattempt : Attempt h bs later e) :
    Attempt h (as ++ bs) (events ++ later ++ undoing (as.map (·.site.cls)) e) e := by
  cases hattempt with
  | value hbs =>
      rw [undoing_value, List.append_nil]
      exact .value (has.append hbs)
  | @stopped done _ _ before own _ hjobs hdone hlast hnot =>
      have hall : events ++ (before ++ own ++ undoing (done.map (·.site.cls)) e)
            ++ undoing (as.map (·.site.cls)) e
          = events ++ before ++ own ++ undoing ((as ++ done).map (·.site.cls)) e := by
        simp only [List.map_append, undoing_append, List.append_assoc]
      rw [hall]
      exact .stopped (by rw [hjobs, List.append_assoc]) (has.append hdone) hlast hnot

theorem completed {u : Unit} (hattempt : Attempt h as events (.value u)) :
    Completed h as events := by
  cases hattempt with
  | value hall => exact hall
  | stopped _ _ _ hnot => exact absurd rfl hnot

end Attempt

section Runs

/-- A class that passes on an error destroys the parents that it has built. -/
theorem tells_of_onRaise {m : Run Failure Unit} {held : List Token} {built : List NativeClass}
    {w x : World} {events : List Event} {e : Ending Failure Unit} (hm : m.Grows)
    (htells : (Run.onRaise held m (unwind built)).Tells w events e x) :
    ∃ before u, m.Tells w before e u
      ∧ events = before ++ undoing (NativeClass.flattenAll built) e := by
  have hjournal : ∀ u : World, (unwind built u).journal.toList
      = u.journal.toList ++ (NativeClass.flattenAll built).reverse.map Event.ofRazed := by
    intro u
    rw [← NativeClass.destructionAll_eq]
    simp [unwind, World.record]
  rcases Run.Tells.of_onRaise hm (fun u => ⟨_, (hjournal u).symm⟩) htells with
    ⟨hnot, hinner⟩ | ⟨f, before, u, later, rfl, hinner, -, hlater, rfl⟩
  · refine ⟨events, x, hinner, ?_⟩
    cases e with
    | raised f => exact absurd rfl (hnot f)
    | _ => exact (List.append_nil _).symm
  · rw [hjournal] at hlater
    rw [← List.append_cancel_left hlater]
    exact ⟨before, u, hinner, rfl⟩

variable (hh : h.Delivers) (t : TwinId)
include hh

mutual

/-- Parents are built before the class itself. -/
theorem attempt_of_constructClass (g : ArgGroup) (fromDerived : Bool) :
    (c : NativeClass) → (start : Nat) → {w x : World} → {events : List Event} →
      {e : Ending Failure Unit} → (constructClass h t g fromDerived c start).Tells w events e x →
      Attempt h (jobs t g fromDerived c start) events e
  | ⟨id, name, parents, members, constructors, vtable, methods, virtualDtor, copyPolicy, hooks⟩,
    start, w, x, events, e, htells => by
      rw [constructClass] at htells
      let c : NativeClass := ⟨id, name, parents, members, constructors, vtable, methods,
        virtualDtor, copyPolicy, hooks⟩
      let j : Job := ⟨⟨t, start + NativeClass.segmentCounts parents, c⟩, g, fromDerived⟩
      have hown := constructOwn_delivers hh j.site g fromDerived
      have hmark : (Run.modify (·.record [Event.ofBuilt c])).Delivers Thrown.capture :=
        .modify fun w => .tell w fun _ => rfl
      have hguarded : (Run.onRaise (segmentTokens parents)
          (constructOwn h j.site g fromDerived) (unwind parents)).Delivers Thrown.capture :=
        hown.onRaise fun w => .unwind w parents
      have hclasses := defaultJobs_classes t (NativeClass.flattenAll parents) start
      rcases Run.Tells.of_seq (Run.Carries.grows (constructParents_delivers hh t [] parents start))
          (Run.Delivers.bind hguarded fun _ => hmark).grows htells with
        ⟨first, u, later, hparents, hlater, rfl⟩ | ⟨hnot, hparents⟩
      · obtain ⟨before, hattempt, rfl⟩ := attempt_of_constructParents [] parents start hparents
        rw [undoing_value, List.append_nil]
        rcases Run.Tells.of_seq hguarded.grows hmark.grows hlater with
          ⟨_, v, mark, hsegment, hmarked, rfl⟩ | ⟨hnot, hsegment⟩
        · obtain ⟨rfl, -, hjournal⟩ := Run.Tells.of_modify hmarked
          have hmark : [Event.ofBuilt c] = mark := by
            have htold : v.journal.toList ++ [Event.ofBuilt c] = v.journal.toList ++ mark := by
              rw [← hjournal]
              simp [World.record, c]
            exact List.append_cancel_left htold
          obtain ⟨own, u', hfilled, rfl⟩ := tells_of_onRaise hown.grows hsegment
          rw [undoing_value, List.append_nil, ← hmark]
          exact .value (hattempt.completed.append (.cons ⟨u, u', hfilled⟩ .nil))
        · obtain ⟨own, v, hstopped, rfl⟩ := tells_of_onRaise hown.grows hsegment
          have hlast : j.Tells h own e := ⟨u, v, hstopped⟩
          have hstop : Attempt h (_ ++ j :: []) _ e := .stopped rfl hattempt.completed hlast hnot
          rw [hclasses, List.append_assoc] at hstop
          exact hstop
      · obtain ⟨before, hattempt, rfl⟩ := attempt_of_constructParents [] parents start hparents
        rw [NativeClass.flattenAll, undoing_nil, List.append_nil]
        exact hattempt.left hnot _

/-- Parents are built one after another. -/
theorem attempt_of_constructParents (built : List NativeClass) :
    (ps : List NativeClass) → (start : Nat) → {w x : World} → {events : List Event} →
      {e : Ending Failure Unit} → (constructParents h t built ps start).Tells w events e x →
      ∃ before, Attempt h (defaultJobs t (NativeClass.flattenAll ps) start) before e
        ∧ events = before ++ undoing (NativeClass.flattenAll built) e
  | [], start, w, x, events, e, htells => by
      rw [constructParents] at htells
      cases htells with
      | ended hjournal =>
          rw [List.self_eq_append_right.mp hjournal]
          exact ⟨[], .value .nil, rfl⟩
  | p :: ps, start, w, x, events, e, htells => by
      rw [constructParents] at htells
      have hp := constructClass_delivers hh t {} true p start
      have hjobs : defaultJobs t (NativeClass.flattenAll (p :: ps)) start
          = jobs t {} true p start
            ++ defaultJobs t (NativeClass.flattenAll ps) (start + p.segmentCount) := by
        rw [NativeClass.flattenAll, defaultJobs_append, jobs_default, NativeClass.segmentCount_eq]
      rw [hjobs]
      rcases Run.Tells.of_seq (hp.onRaise fun w => .unwind w built).grows
          (constructParents_delivers hh t (built ++ [p]) ps _).grows htells with
        ⟨first, u, later, hfirst, hrest, rfl⟩ | ⟨hnot, hfirst⟩
      · obtain ⟨first, v, hbuilt, rfl⟩ := tells_of_onRaise hp.grows hfirst
        obtain ⟨later, hattempt, rfl⟩ := attempt_of_constructParents (built ++ [p]) ps _ hrest
        have hdone := (attempt_of_constructClass {} true p start hbuilt).completed
        refine ⟨_, hattempt.right hdone, ?_⟩
        rw [jobs_classes, undoing_value, NativeClass.flattenAll_append, undoing_append,
          NativeClass.flattenAll, NativeClass.flattenAll, List.append_nil]
        simp only [List.append_assoc, List.append_nil]
      · obtain ⟨before, v, hstopped, rfl⟩ := tells_of_onRaise hp.grows hfirst
        exact ⟨before, (attempt_of_constructClass {} true p start hstopped).left hnot _, rfl⟩

end

omit t in
/-- What an attempt at a base tells, and the mark of one that was constructed already. -/
theorem attempt_of_constructBase {t : TwinId} {index : Nat} {g : ArgGroup} {fromDerived : Bool}
    {w x : World} {b : BaseRange} {events : List Event} {e : Ending Failure Unit}
    (hbase : (w.twin t).layout.baseRange? index = some b)
    (htells : (constructBase h t index g fromDerived).Tells w events e x) :
    ∃ told mark, events = told ++ mark ∧ Attempt h (jobs t g fromDerived b.base b.start) told e
      ∧ (mark = [] ∨ e = .value () ∧ mark = [.rebuilt (b.base.flatten.map NativeClass.id)]) := by
  have hclass := constructClass_delivers hh t g fromDerived b.base b.start
  have hmark : (Run.modify (markBuilt t index b.base)).Delivers Thrown.capture :=
    .modify fun w => .markBuilt w t index b.base
  rw [Run.Tells, constructBase_of_some h g fromDerived hbase] at htells
  rcases Run.Tells.of_seq hclass.filling.grows hmark.grows htells with
    ⟨told, u, mark, hfilled, hmarked, rfl⟩ | ⟨hnot, hfilled⟩
  · obtain ⟨v, v', hbuilt, -⟩ := Run.Tells.of_filling hclass.grows hfilled
    obtain ⟨rfl, -, hjournal⟩ := Run.Tells.of_modify hmarked
    refine ⟨told, mark, rfl, attempt_of_constructClass hh t g fromDerived _ _ hbuilt, ?_⟩
    unfold markBuilt at hjournal
    dsimp only at hjournal
    split at hjournal
    · refine .inr ⟨rfl, List.append_cancel_left (hjournal.symm.trans ?_)⟩
      simp [World.record, World.modifyTwin]
    · exact .inl (List.self_eq_append_right.mp hjournal)
  · obtain ⟨v, v', hbuilt, -⟩ := Run.Tells.of_filling hclass.grows hfilled
    exact ⟨events, [], (List.append_nil _).symm,
      attempt_of_constructClass hh t g fromDerived _ _ hbuilt, .inl rfl⟩

end Runs

section Phases

/-- What filling one segment tells, part by part.  Its old values are let go, which builds
nothing; then constructors are tried, for which arguments are converted; and the chosen
one runs. -/
inductive Job.Phases (h : Host) (j : Job) : List Event → Ending Failure Unit → Prop
  | plain {reset : List Event} {e : Ending Failure Unit}
      (hreset : ∀ id hooks, .built id hooks ∉ reset) (hnone : j.site.cls.constructors = []) :
      Phases h j reset e
  | refused {w : World} {reset search : List Event} {f : Failure}
      (hreset : ∀ id hooks, .built id hooks ∉ reset)
      (hsearch : (searchFor j.site j.group j.fromDerived w).2.journal.toList
        = w.journal.toList ++ search)
      (hrefused : ∀ c args, (searchFor j.site j.group j.fromDerived w).1 ≠ .chosen c args) :
      Phases h j (reset ++ search) (.raised f)
  | ran {w u : World} {reset search body : List Event} {c : Constructor} {args : List NativeValue}
      {e : Ending Failure Unit} (hreset : ∀ id hooks, .built id hooks ∉ reset)
      (hsearch : (searchFor j.site j.group j.fromDerived w).2.journal.toList
        = w.journal.toList ++ search)
      (hchosen : (searchFor j.site j.group j.fromDerived w).1 = .chosen c args)
      (hbody : (runBody h j.site c args).Tells (searchFor j.site j.group j.fromDerived w).2 body e
        u) :
      Phases h j (reset ++ search ++ body) e

/-- Whether nothing was built between two worlds. -/
def Idle (w u : World) : Prop :=
  ∃ events, u.journal.toList = w.journal.toList ++ events ∧ ∀ id hooks, .built id hooks ∉ events

namespace Idle

variable {w u v : World}

theorem of_eq (hjournal : u.journal = w.journal) : Idle w u :=
  ⟨[], by rw [hjournal, List.append_nil], fun _ _ => List.not_mem_nil⟩

theorem trans (hwu : Idle w u) (huv : Idle u v) : Idle w v := by
  obtain ⟨before, hu, hbefore⟩ := hwu
  obtain ⟨after, hv, hafter⟩ := huv
  refine ⟨before ++ after, by rw [hv, hu, List.append_assoc], fun id hooks hmem => ?_⟩
  exact (List.mem_append.mp hmem).elim (hbefore id hooks) (hafter id hooks)

theorem record (w : World) {events : List Event} (hevents : ∀ id hooks, .built id hooks ∉ events) :
    Idle w (w.record events) :=
  ⟨events, by simp [World.record], hevents⟩

theorem letGo (w : World) (hd : Handle) : Idle w (w.letGo hd).1 := by
  unfold World.letGo
  split
  · exact record w (by simp)
  · rename_i a ha
    have hcounted : Idle w (if a.tally hd = 0 then w.record [.overdrawn hd] else w) := by
      split
      · exact record w (by simp)
      · exact of_eq rfl
    dsimp only
    split
    · exact hcounted.trans (record _ (by simp [Event.ofRazed]))
    · exact hcounted.trans (of_eq rfl)

theorem endClass (id : ClassId) (w : World) : Idle w (w.endClass id).1 := by
  obtain ⟨classes, hframe, -⟩ := w.endClass_frame id
  rw [hframe]
  exact of_eq rfl

theorem endNative (id : NativeId) (w : World) : Idle w (w.endNative id).1 := by
  obtain ⟨declared, hframe⟩ := w.endNative_frame id
  rw [hframe]
  exact of_eq rfl

/-- Letting go of handles builds nothing, whatever is released. -/
theorem drop (w : World) (hs : List Handle) : Idle w (w.drop hs) :=
  World.drop_leads (fun _ => of_eq rfl) trans letGo (fun _ _ _ _ => of_eq rfl) endClass endNative
    w hs

theorem retainAll (w : World) (hs : List Handle) : Idle w (w.retainAll hs) := by
  obtain ⟨twins, hframe, -⟩ := w.retainAll_frame hs
  rw [hframe]
  exact of_eq rfl

theorem resetSegment (s : Site) (w : World) : Idle w (Construction.resetSegment s w) := by
  unfold Construction.resetSegment
  split
  · exact record w (by simp)
  · exact ((retainAll w _).trans (of_eq rfl)).trans (drop _ _)

end Idle

/-- Filling a segment goes through its phases. -/
theorem Job.Tells.phases (hh : h.Delivers) {j : Job} {events : List Event} {e : Ending Failure Unit}
    (htells : j.Tells h events e) : j.Phases h events e := by
  obtain ⟨w, u, htells⟩ := htells
  obtain ⟨reset, hreset, hidle⟩ := Idle.resetSegment j.site w
  rw [Run.Tells, constructOwn_eq, fillReset] at htells
  generalize resetSegment j.site w = v at hreset htells
  split at htells
  · rename_i hnone
    cases htells with
    | ended hjournal =>
        rw [← List.append_cancel_left (hreset.symm.trans hjournal)]
        exact .plain hidle (List.isEmpty_iff.mp hnone)
  · obtain ⟨search, hsearch, -⟩ := (Choice.search_silent (contextOf j.site) j.group j.fromDerived
      j.site.cls.constructors Fit.order false v).journal
    change (searchFor j.site j.group j.fromDerived v).2.journal.toList = _ at hsearch
    have hboth : (searchFor j.site j.group j.fromDerived v).2.journal.toList
        = w.journal.toList ++ (reset ++ search) := by
      rw [← List.append_assoc, ← hreset, hsearch]
    cases hchoice : (searchFor j.site j.group j.fromDerived v).1 with
    | chosen c args =>
        rw [hchoice] at htells
        have hbody : (runBody h j.site c args).Grows := Run.Carries.grows
          (.holding (Run.Delivers.bind (hh.native _ c.body) fun result =>
            Run.Delivers.modify fun w => .drop w _))
        obtain ⟨body, rfl, hran⟩ := Course.Tells.after htells (hbody _) hboth
        exact .ran hidle hsearch hchoice hran
    | _ =>
        rw [hchoice] at htells
        cases htells with
        | ended hjournal =>
            rw [← List.append_cancel_left (hboth.symm.trans hjournal)]
            exact .refused hidle hsearch fun c args hc => by
              rw [hchoice] at hc
              cases hc

end Phases

end Construction

/-- A release razes the segments of all constructed bases in the reverse of the order in which
they are built. -/
theorem Twin.razedSegments_eq (a : Twin) :
    a.razedSegments = (a.builtBases.flatMap fun b => b.base.flatten).reverse := by
  rw [razedSegments, List.reverse_flatMap]
  refine List.flatMap_congr fun b hb => ?_
  rw [Layout.map_fst_segmentsDown, segmentsIn_layout (mem_bases_of_built (List.mem_reverse.mp hb))]
  rfl

open Construction in
/-- Construction of a base of any hierarchy, with any arguments.  All that is told on the way is
told by the segments that are filled, in storage order, each followed by its mark as built; an
error is followed by the destruction of exactly the completed ones, in reverse.  Filling a
segment lets go of its old values, which builds nothing, converts arguments for the
constructors that it tries, and runs the chosen one.  A release destroys the segments of a
base in the order of its recursive destruction, which is the reverse of storage order. -/
theorem construction_unwinds (depth : Nat) (t : TwinId) (index : Nat) (g : ArgGroup)
    (fromDerived : Bool) :
    (∀ (w x : World) (b : BaseRange) (events : List Event) (e : Ending Failure Unit),
      (w.twin t).layout.baseRange? index = some b →
      (constructBase (.nested .memo depth) t index g fromDerived).Tells w events e x →
      let todo := jobs t g fromDerived b.base b.start
      todo.map (·.site.cls) = b.base.flatten
      ∧ (e = .value () → ∃ told, Completed (.nested .memo depth) todo told
        ∧ (events = told ∨ events = told ++ [.rebuilt (b.base.flatten.map NativeClass.id)]))
      ∧ ∀ f, e = .raised f → ∃ done failing rest told own, todo = done ++ failing :: rest
        ∧ Completed (.nested .memo depth) done told
        ∧ failing.Tells (.nested .memo depth) own (.raised f)
        ∧ events = told ++ own ++ (done.map (·.site.cls)).reverse.map Event.ofRazed)
    ∧ (∀ (j : Job) (own : List Event) (e : Ending Failure Unit),
      j.Tells (.nested .memo depth) own e → j.Phases (.nested .memo depth) own e)
    ∧ (∀ (bases : List NativeClass) (i : Nat) (b : BaseRange),
      (Layout.of bases).baseRange? i = some b →
      ((Layout.of bases).segmentsDown b).map (·.1) = b.base.destruction
      ∧ b.base.destruction = b.base.flatten.reverse)
    ∧ ∀ (w : World) (i : TwinId) (a : Twin), (w.release i a).1.journal.toList
      = w.journal.toList ++ .released i
        :: (a.builtBases.flatMap fun b => b.base.flatten).reverse.map Event.ofRazed := by
  have hh := Host.nested_delivers depth
  refine ⟨fun w x b events e hbase htells => ?_, fun j own e htells => htells.phases hh,
    fun bases i b hb => ?_, fun w i a => ?_⟩
  · obtain ⟨told, mark, rfl, hattempt, hmark⟩ := attempt_of_constructBase hh hbase htells
    refine ⟨jobs_classes .., fun he => ?_, fun f he => ?_⟩
    · subst he
      refine ⟨told, hattempt.completed, ?_⟩
      rcases hmark with rfl | ⟨-, rfl⟩
      · exact .inl (List.append_nil told)
      · exact .inr rfl
    · subst he
      obtain rfl : mark = [] := hmark.resolve_right fun h => nomatch h.1
      rw [List.append_nil]
      cases hattempt with
      | stopped hjobs hdone hlast => exact ⟨_, _, _, _, _, hjobs, hdone, hlast, rfl⟩
  · rw [NativeClass.destruction_eq, Layout.map_fst_segmentsDown,
      Layout.segmentsIn_of (List.mem_of_getElem? hb)]
    exact ⟨rfl, rfl⟩
  · rw [← Twin.razedSegments_eq]
    simp [World.release, World.record, World.setTwin]

/-! An engine is built before its car, whose constructor fails. -/

namespace Workshop

def engine : NativeClass :=
  { (default : NativeClass) with id := ⟨0⟩, name := "Engine", hooks := ["engine"] }

def car : NativeClass :=
  { (default : NativeClass) with
    id := ⟨1⟩, name := "Car", parents := [engine]
    constructors := [⟨[], .everyone, .fail (.native "E" "no wheels")⟩] }

def site : World :=
  { (default : World) with twins := #[.fresh 0 (.native car) .native] }

end Workshop

open Construction Workshop in
theorem construction_unwinds_engine :
    (∃ u, (constructBase (.nested .memo 1) 0 0 {} false).Tells site
      [.built ⟨0⟩ ["engine"], .razed ⟨0⟩ ["engine"]] (.raised (.native "E" "no wheels")) u)
    ∧ ∃ done failing rest told own, jobs 0 {} false car 0 = done ++ failing :: rest
      ∧ Completed (.nested .memo 1) done told
      ∧ [.built ⟨0⟩ ["engine"], .razed ⟨0⟩ ["engine"]]
        = told ++ own ++ (done.map (·.site.cls)).reverse.map Event.ofRazed := by
  have htells : ∃ u, (constructBase (.nested .memo 1) 0 0 {} false).Tells site
      [.built ⟨0⟩ ["engine"], .razed ⟨0⟩ ["engine"]] (.raised (.native "E" "no wheels")) u := by
    with_unfolding_all exact ⟨_, .ended rfl⟩
  refine ⟨htells, ?_⟩
  obtain ⟨u, hu⟩ := htells
  have hbase : (site.twin 0).layout.baseRange? 0 = some ⟨car, 0, 2⟩ := rfl
  obtain ⟨-, -, hraised⟩ := (construction_unwinds 1 0 0 {} false).1 site u _ _ _ hbase hu
  obtain ⟨done, failing, rest, told, own, hjobs, hdone, -, hevents⟩ := hraised _ rfl
  exact ⟨done, failing, rest, told, own, hjobs, hdone, hevents⟩

/-- A constructor that makes an instance of its own and fails, in a segment that held the last
handle of another one: both are destroyed, although no segment was completed. -/
theorem construction_destroys_others :
    let part : NativeClass :=
      { (default : NativeClass) with id := ⟨0⟩, name := "P", hooks := ["P"] }
    let whole : NativeClass :=
      { (default : NativeClass) with
        id := ⟨1⟩, name := "A", members := [⟨"p", .object "P", .everyone, .null⟩]
        constructors := [⟨[], .everyone, .seq [.construct "P" [], .fail (.native "E" "m")]⟩] }
    let w : World :=
      { (default : World) with
        twins := #[
          { Twin.fresh 0 (.native part) .native with
            constructed := [true], nativeCount := 1, dynamicCount := 0 },
          { Twin.fresh 0 (.native whole) .native with storage := [[.object 0]] }]
        scope := { (default : Scope) with natives := [("P", part)] } }
    ∃ u, (Construction.constructBase (.nested .memo 1) 1 0 {} false).Tells w
      [.released 0, .razed ⟨0⟩ ["P"], .built ⟨0⟩ ["P"], .released 2, .razed ⟨0⟩ ["P"]]
      (.raised (.native "E" "m")) u := by
  with_unfolding_all exact ⟨_, .ended rfl⟩

end TwinObject
