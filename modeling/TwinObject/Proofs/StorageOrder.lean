/-
Construction in storage order.  The construction of a base goes down its hierarchy and counts
positions on the way.  All that comes to is that the segments of the base are filled one after
another, each at its own position and by the class that the layout has there.
-/
import TwinObject.Proofs.Declarations
import TwinObject.Proofs.Tiling
import TwinObject.Proofs.Unwinding

namespace TwinObject

open Hold

variable {ε ε' ε'' α β γ : Type}

/-- Whether two courses are the same up to the order in which they hold what they hold. -/
inductive Course.Matches : Course ε α → Course ε α → Prop
  | ended (e : Ending ε α) (w : World) : Matches (.ended e w) (.ended e w)
  | paused {held held' : List Token} {w : World} {ready : World → Option World}
      {next next' : World → Course ε α} (hheld : held.Perm held')
      (hnext : ∀ v, Matches (next v) (next' v)) :
      Matches (.paused held w ready next) (.paused held' w ready next')
  | exhausted (w : World) : Matches (.exhausted w) (.exhausted w)

namespace Course.Matches

theorem refl (c : Course ε α) : c.Matches c := by
  induction c with
  | ended e w => exact .ended e w
  | paused held w ready next ih => exact .paused (.refl held) ih
  | exhausted w => exact .exhausted w

theorem symm {c d : Course ε α} (h : c.Matches d) : d.Matches c := by
  induction h with
  | ended e w => exact .ended e w
  | paused hheld _ ih => exact .paused hheld.symm ih
  | exhausted w => exact .exhausted w

theorem trans {c d e : Course ε α} (h : c.Matches d) (h' : d.Matches e) : c.Matches e := by
  induction h generalizing e with
  | ended => exact h'
  | exhausted => exact h'
  | paused hheld _ ih =>
      cases h' with
      | paused hheld' hnext' => exact .paused (hheld.trans hheld') fun v => ih v (hnext' v)

theorem andThen {c d : Course ε α} {held held' : List Token}
    {next next' : Ending ε α → World → Course ε' β} (h : c.Matches d) (hheld : held.Perm held')
    (hnext : ∀ e w, (next e w).Matches (next' e w)) :
    (c.andThen held next).Matches (d.andThen held' next') := by
  induction h with
  | ended e w => exact hnext e w
  | paused hinner _ ih => exact .paused (hinner.append hheld) ih
  | exhausted w => exact .exhausted w

/-- What follows what follows a course follows it. -/
theorem andThen_andThen (c : Course ε α) {held held' both : List Token}
    {next : Ending ε α → World → Course ε' β} {next' : Ending ε' β → World → Course ε'' γ}
    {after : Ending ε α → World → Course ε'' γ} (hheld : (held ++ held').Perm both)
    (hnext : ∀ e w, ((next e w).andThen held' next').Matches (after e w)) :
    ((c.andThen held next).andThen held' next').Matches (c.andThen both after) := by
  induction c with
  | ended e w => exact hnext e w
  | paused inner w ready rest ih =>
      refine .paused ?_ ih
      rw [List.append_assoc]
      exact hheld.append_left inner
  | exhausted w => exact .exhausted w

end Course.Matches

/-- Whether code does the same in every world, up to the order in which it holds what it
holds. -/
def Run.Matches (m k : Run ε α) : Prop :=
  ∀ w, (m w).Matches (k w)

namespace Run.Matches

variable {m k l : Run ε α}

theorem refl (m : Run ε α) : m.Matches m :=
  fun w => .refl (m w)

theorem symm (h : m.Matches k) : k.Matches m :=
  fun w => (h w).symm

theorem trans (h : m.Matches k) (h' : k.Matches l) : m.Matches l :=
  fun w => (h w).trans (h' w)

theorem bind {f g : α → Run ε β} (h : m.Matches k) (hfollow : ∀ a, (f a).Matches (g a)) :
    (m >>= f).Matches (k >>= g) := by
  refine fun w => (h w).andThen (.refl _) fun e u => ?_
  cases e with
  | value a => exact hfollow a u
  | raised f => exact .refl _
  | panicked text => exact .refl _

theorem bind_assoc (m : Run ε α) (f : α → Run ε β) (g : β → Run ε γ) :
    (m >>= f >>= g).Matches (m >>= fun a => f a >>= g) := by
  refine fun w => .andThen_andThen (m w) (.refl _) fun e u => ?_
  cases e <;> exact .refl _

theorem onRaise {held held' : List Token} {f : World → World} (h : m.Matches k)
    (hheld : held.Perm held') : (Run.onRaise held m f).Matches (Run.onRaise held' k f) :=
  fun w => (h w).andThen hheld fun _ _ => .refl _

/-- What is done on an error of a sequence is done on an error of each part. -/
theorem onRaise_bind (held : List Token) (m : Run ε α) (g : α → Run ε β) (f : World → World) :
    (Run.onRaise held (m >>= g) f).Matches
      (Run.onRaise held m f >>= fun a => Run.onRaise held (g a) f) := by
  intro w
  have hheld : (held ++ []).Perm held := .of_eq (List.append_nil held)
  refine .trans (.andThen_andThen (m w) (.refl held) fun e u => ?_)
    (.symm (.andThen_andThen (m w) hheld fun e u => .refl _))
  cases e <;> exact .refl _

/-- Of what is done on an error, what was begun last comes first. -/
theorem onRaise_onRaise (held held' : List Token) (m : Run ε α) (f f' : World → World) :
    (Run.onRaise held (Run.onRaise held' m f') f).Matches
      (Run.onRaise (held' ++ held) m fun w => f (f' w)) := by
  refine fun w => .andThen_andThen (m w) (.refl _) fun e u => ?_
  cases e <;> exact .refl _

theorem onRaise_nil (m : Run ε α) : (Run.onRaise [] m id).Matches m := by
  intro w
  unfold Run.onRaise Run.thenDo
  induction m w with
  | ended e u => cases e <;> exact .refl _
  | paused held u ready next ih => exact .paused (by rw [List.append_nil]) ih
  | exhausted u => exact .exhausted u

theorem filling (t : TwinId) (h : m.Matches k) : (Run.filling t m).Matches (Run.filling t k) :=
  bind (.refl _) fun _ => bind (.refl _) fun _ w => (h w).andThen (.refl _) fun _ _ => .refl _

end Run.Matches

namespace Construction

/-- Segments that are built and belong to no constructed base yet. -/
def builtTokens (built : List NativeClass) : List Token :=
  built.map fun s => .segment s.id

/-- Record the destruction of segments, the last one first. -/
def razeAll (built : List NativeClass) (w : World) : World :=
  w.record (built.reverse.map Event.ofRazed)

/-- Fill segments one after another, each of which is built then; `built` are those built
before.  If one cannot be filled all that are built are razed in reverse. -/
def fillEach (h : Host) : List NativeClass → List Job → Run Failure Unit
  | _, [] => return ()
  | built, j :: rest => do
      Run.onRaise (builtTokens built) (constructOwn h j.site j.group j.fromDerived) (razeAll built)
      Run.modify (·.record [Event.ofBuilt j.site.cls])
      fillEach h (built ++ [j.site.cls]) rest

theorem razeAll_razeAll (as bs : List NativeClass) (w : World) :
    razeAll as (razeAll bs w) = razeAll (as ++ bs) w := by
  rw [razeAll, razeAll, razeAll, World.record_append, List.reverse_append, List.map_append]

theorem unwind_eq (built : List NativeClass) :
    unwind built = razeAll (NativeClass.flattenAll built) := by
  funext w
  rw [unwind, razeAll, NativeClass.destructionAll_eq]

theorem fillEach_append (h : Host) (built : List NativeClass) (as bs : List Job) :
    (fillEach h built (as ++ bs)).Matches
      (fillEach h built as >>= fun _ => fillEach h (built ++ as.map (·.site.cls)) bs) := by
  induction as generalizing built with
  | nil =>
      rw [List.map_nil, List.append_nil]
      exact .refl _
  | cons j as ih =>
      have hrest := ih (built ++ [j.site.cls])
      rw [List.append_assoc, List.singleton_append] at hrest
      refine .trans ?_ (.symm (.bind_assoc _ _ _))
      refine .bind (.refl _) fun _ => .trans ?_ (.symm (.bind_assoc _ _ _))
      exact .bind (.refl _) fun _ => hrest

section Flat

variable (h : Host) (t : TwinId)

/-- Errors within an error: what an inner class destroys comes before the rest. -/
theorem onRaise_built_matches (built inner : List NativeClass) (m : Run Failure Unit) :
    (Run.onRaise (builtTokens built) (Run.onRaise (segmentTokens inner) m (unwind inner))
        (razeAll built)).Matches
      (Run.onRaise (builtTokens (built ++ NativeClass.flattenAll inner)) m
        (razeAll (built ++ NativeClass.flattenAll inner))) := by
  refine (Run.Matches.onRaise_onRaise _ _ m _ _).trans ?_
  have hraze : (fun w => razeAll built (unwind inner w))
      = razeAll (built ++ NativeClass.flattenAll inner) := by
    funext w
    rw [unwind_eq, razeAll_razeAll]
  rw [hraze]
  refine .onRaise (.refl m) ?_
  rw [builtTokens, builtTokens, List.map_append]
  exact List.perm_append_comm

mutual

/-- The construction of a class fills its segments in storage order. -/
theorem constructClass_matches (g : ArgGroup) (fromDerived : Bool) (built : List NativeClass) :
    (c : NativeClass) → (start : Nat) →
      (Run.onRaise (builtTokens built) (constructClass h t g fromDerived c start)
        (razeAll built)).Matches (fillEach h built (jobs t g fromDerived c start))
  | c@⟨_, _, parents, _, _, _, _, _, _, _⟩, start => by
      have hparents := constructParents_matches built [] parents start
      rw [NativeClass.flattenAll, List.append_nil] at hparents
      rw [constructClass, jobs]
      refine (Run.Matches.onRaise_bind _ _ _ _).trans (.trans ?_ (.symm (fillEach_append _ _ _ _)))
      refine .bind hparents fun _ => ?_
      refine (Run.Matches.onRaise_bind _ _ _ _).trans ?_
      rw [defaultJobs_classes, fillEach]
      exact .bind (onRaise_built_matches built parents _) fun _ => .refl _

theorem constructParents_matches (built done : List NativeClass) :
    (ps : List NativeClass) → (start : Nat) →
      (Run.onRaise (builtTokens built) (constructParents h t done ps start) (razeAll built)).Matches
        (fillEach h (built ++ NativeClass.flattenAll done)
          (defaultJobs t (NativeClass.flattenAll ps) start))
  | [], start => .refl _
  | p :: ps, start => by
      rw [constructParents, NativeClass.flattenAll, defaultJobs_append, ← jobs_default,
        ← NativeClass.segmentCount_eq]
      refine (Run.Matches.onRaise_bind _ _ _ _).trans (.trans ?_ (.symm (fillEach_append _ _ _ _)))
      refine .bind ?_ fun _ => ?_
      · exact (onRaise_built_matches built done _).trans (constructClass_matches {} true _ p start)
      · have hrest := constructParents_matches built (done ++ [p]) ps (start + p.segmentCount)
        rw [NativeClass.flattenAll_append, NativeClass.flattenAll, NativeClass.flattenAll,
          List.append_nil, ← List.append_assoc] at hrest
        rw [jobs_classes]
        exact hrest

end

/-- With nothing built before, nothing is done on an error. -/
theorem constructClass_matches_jobs (g : ArgGroup) (fromDerived : Bool) (c : NativeClass)
    (start : Nat) :
    (constructClass h t g fromDerived c start).Matches
      (fillEach h [] (jobs t g fromDerived c start)) := by
  refine .trans (.symm ?_) (constructClass_matches h t g fromDerived [] c start)
  have hnothing : razeAll [] = id := funext World.record_nil
  rw [hnothing]
  exact .onRaise_nil _

end Flat

section Places

variable (t : TwinId) (g : ArgGroup) (fromDerived : Bool)

/-- The segments of a class are filled at consecutive positions. -/
theorem jobs_segments (c : NativeClass) (start : Nat) :
    (jobs t g fromDerived c start).map (·.site.segment) = List.range' start c.segmentCount := by
  have hparents : (defaultJobs t (NativeClass.flattenAll c.parents) start).map (·.site.segment)
      = List.range' start (NativeClass.segmentCounts c.parents) := by
    rw [defaultJobs, List.map_map, NativeClass.segmentCounts_eq]
    exact List.zipIdx_map_snd start _
  rw [jobs, List.map_append, hparents, NativeClass.segmentCount_eq, NativeClass.flatten_eq,
    List.length_append, ← NativeClass.segmentCounts_eq, List.length_singleton,
    List.range'_concat, Nat.one_mul]
  rfl

theorem jobs_twin {c : NativeClass} {start : Nat} {j : Job}
    (hj : j ∈ jobs t g fromDerived c start) : j.site.twin = t := by
  rcases List.mem_append.mp hj with hj | hj
  · obtain ⟨p, -, rfl⟩ := List.mem_map.mp hj
    rfl
  · rw [List.mem_singleton.mp hj]

/-- Every segment of a base is filled by the class that the layout has there. -/
theorem jobs_placed {bases : List NativeClass} {b : BaseRange} (hb : b ∈ (Layout.of bases).bases)
    {j : Job} (hj : j ∈ jobs t g fromDerived b.base b.start) :
    b.start ≤ j.site.segment ∧ j.site.segment < b.stop
      ∧ (Layout.of bases).segments[j.site.segment]? = some j.site.cls := by
  obtain ⟨k, hk⟩ := List.mem_iff_getElem?.mp hj
  obtain ⟨-, hwidth, -⟩ := (Layout.spans_of bases).within.2 b hb
  have hsegment : (List.range' b.start b.base.segmentCount)[k]? = some j.site.segment := by
    rw [← jobs_segments t g fromDerived, List.getElem?_map, hk, Option.map_some]
  have hcls : b.base.flatten[k]? = some j.site.cls := by
    rw [← jobs_classes t g fromDerived b.base b.start, List.getElem?_map, hk, Option.map_some]
  obtain ⟨hlt, hplace⟩ := List.getElem?_eq_some_iff.mp hsegment
  rw [List.getElem_range', Nat.one_mul] at hplace
  rw [List.length_range'] at hlt
  have hown := Layout.segmentsIn_of hb
  rw [Layout.segmentsIn, List.drop_take] at hown
  rw [← hown, List.getElem?_take_of_lt (by omega), List.getElem?_drop, hplace] at hcls
  exact ⟨by omega, by omega, hcls⟩

end Places

end Construction

namespace Attained

variable {w : World} {R : Hold}

/-- No class is among the segments of another one twice. -/
theorem distinct_of_kept (hattained : Attained w R) {c : NativeClass} (hkeeps : w.Keeps c) :
    (c.flatten.map NativeClass.id).Nodup :=
  hattained.reached fun _ hreach =>
    hreach.invariant.classed.distinct _ _ (hkeeps c c.mem_flatten_self)

theorem distinct_of_build (hattained : Attained w R) {d : NativeDecl} {c : NativeClass}
    (hparents : ∀ p ∈ d.parents, w.Keeps p)
    (hbuild : d.build w.nativeLabel ⟨w.declared.size⟩ = .ok c) :
    (c.flatten.map NativeClass.id).Nodup := by
  have hbuilds := NativeDecl.build_ok hbuild
  exact hattained.reached fun _ hreach => World.nodup_flatten hreach.invariant hbuilds.id
    (hbuilds.parents ▸ hparents) (hbuilds.parents ▸ hbuilds.unshared)

theorem distinct_of_compose (hattained : Attained w R) {bases : List NativeClass}
    {comp : Composition} (hkept : ∀ b ∈ bases, w.Keeps b)
    (hcompose : Composition.compose bases = .ok comp) :
    ((Layout.of bases).segments.map NativeClass.id).Nodup := by
  rw [Layout.of, List.map_flatMap, List.nodup_flatMap]
  exact ⟨fun b hb => hattained.distinct_of_kept (hkept b hb),
    (Composition.unshared_of_compose hcompose).imp NativeClass.disjoint_of_unshared⟩

end Attained

open Construction in
/-- How segments lie, in every world that a program comes to.  Of each class that can be declared
the flat list of segments tells what the recursion over its ancestors tells, with one segment
for each id of its lineage.  In its layout, and in that of bases that can be composed, the
bases follow one another without a gap, no class is there twice, and no member that is found
is hidden by one of a class derived from its own.  The construction of a base comes to filling
its segments one after another, each once, at its own position within the base and by the
class that the layout has there; and the storage of an instance has these segments. -/
theorem segments_tiled {w : World} {R : Hold} (hattained : Attained w R) :
    (∀ (d : NativeDecl) (c : NativeClass), (∀ p ∈ d.parents, w.Keeps p) →
      d.build w.nativeLabel ⟨w.declared.size⟩ = .ok c → c.Flattens ∧ (Layout.of [c]).Tiled)
    ∧ (∀ (bases : List NativeClass) (comp : Composition), (∀ b ∈ bases, w.Keeps b) →
      Composition.compose bases = .ok comp →
      comp.layout.bases.map BaseRange.base = bases ∧ comp.layout.Tiled ∧ ∀ b ∈ bases, b.Flattens)
    ∧ ∀ (h : Host) (t : TwinId) (index : Nat) (g : ArgGroup) (fromDerived : Bool) (b : BaseRange),
      (w.twin t).layout.baseRange? index = some b →
      let todo := jobs t g fromDerived b.base b.start
      (constructBase h t index g fromDerived w).Matches
        ((Run.filling t (fillEach h [] todo) >>= fun _ =>
          Run.modify (markBuilt t index b.base)) w)
      ∧ todo.map (·.site.segment) = List.range' b.start b.base.segmentCount
      ∧ (∀ j ∈ todo, j.site.twin = t ∧ b.start ≤ j.site.segment ∧ j.site.segment < b.stop
        ∧ (w.twin t).layout.segments[j.site.segment]? = some j.site.cls)
      ∧ (Lends R t → (w.twin t).storage.length = (w.twin t).layout.segments.length) := by
  refine ⟨fun d c hparents hbuild => ?_, fun bases comp hkept hcompose => ?_,
    fun h t index g fromDerived b hbase => ?_⟩
  · have hdistinct := hattained.distinct_of_build hparents hbuild
    refine ⟨NativeClass.flattens_of hdistinct, Layout.tiled_of ?_⟩
    rwa [NativeClass.segments_single]
  · rw [Composition.layout, ClassDecl.bases_of_compose hcompose]
    exact ⟨Layout.bases_of bases, Layout.tiled_of (hattained.distinct_of_compose hkept hcompose),
      fun b hb => NativeClass.flattens_of (hattained.distinct_of_kept (hkept b hb))⟩
  · refine ⟨?_, jobs_segments t g fromDerived b.base b.start, fun j hj => ⟨jobs_twin _ _ _ hj, ?_⟩,
      fun hlent => ?_⟩
    · rw [constructBase_of_some h g fromDerived hbase]
      refine Run.Matches.bind (.filling t ?_) (fun _ => .refl _) w
      exact constructClass_matches_jobs h t g fromDerived b.base b.start
    · exact jobs_placed t g fromDerived (List.mem_of_getElem? hbase) hj
    · obtain ⟨a, ha, -⟩ := hattained.alive_of_lent hlent
      have hshaped := congrArg List.length (hattained.shaped hlent ha).storage
      rw [List.length_map, List.length_map] at hshaped
      rw [World.twin_eq ha, hshaped]

/-! A truck derives from an engine, which is a part, and from a radio. -/

namespace Depot

def part : NativeClass :=
  { (default : NativeClass) with
    id := ⟨0⟩, name := "Part", members := [⟨"number", .int, .everyone, .int 1⟩] }

def engine : NativeClass :=
  { (default : NativeClass) with
    id := ⟨1⟩, name := "Engine", parents := [part]
    members := [⟨"number", .int, .everyone, .int 2⟩] }

def radio : NativeClass :=
  { (default : NativeClass) with
    id := ⟨2⟩, name := "Radio", members := [⟨"volume", .int, .everyone, .int 3⟩] }

def truck : NativeClass :=
  { (default : NativeClass) with id := ⟨3⟩, name := "Truck", parents := [engine, radio] }

def convoy : NativeDecl where
  name := "Convoy"
  parents := [truck]

def stocked : World :=
  (((World.initial.withNative part).withNative engine).withNative radio).withNative truck

/-- One truck was made, but not constructed. -/
def depot : World :=
  (stocked.admitTwin (.fresh 0 (.native truck) .native)).1

theorem stocked_attained : Attained stocked 0 ∧ ∀ c ∈ [engine, radio, truck], stocked.Keeps c := by
  have hinitial : Attained .initial 0 := .of_reachable .initial
  obtain ⟨hpart, hpart'⟩ := hinitial.declare (c := part) rfl nofun (by decide)
    (List.forall_mem_singleton.mpr (.inl rfl)) rfl
  obtain ⟨hengine, hengine'⟩ := hpart.declare (c := engine) rfl
    (List.forall_mem_singleton.mpr hpart') (by decide) (List.forall_mem_singleton.mpr (.inl rfl))
    rfl
  obtain ⟨hradio, hradio'⟩ := hengine.declare (c := radio) rfl nofun (by decide)
    (List.forall_mem_singleton.mpr (.inl rfl)) rfl
  have hparents : ∀ p ∈ truck.parents, _ := List.forall_mem_cons.mpr
    ⟨hengine'.withNative radio, List.forall_mem_singleton.mpr hradio'⟩
  obtain ⟨htruck, htruck'⟩ := hradio.declare (c := truck) rfl hparents (by decide) nofun rfl
  refine ⟨htruck, ?_⟩
  simp only [List.forall_mem_cons]
  exact ⟨(hengine'.withNative radio).withNative truck, hradio'.withNative truck, htruck', nofun⟩

theorem depot_attained : Attained depot {.handle (.dynamic 0)} := by
  obtain ⟨hstocked, hkeeps⟩ := stocked_attained
  exact (hstocked.create (k := .native truck) .native (hkeeps truck (by simp)) rfl
    ⟨Nat.zero_lt_one, nofun⟩ Attributes.handles_empty).cast (zero_add _).symm

end Depot

open Construction Depot in
theorem segments_tiled_truck :
    (∃ c, convoy.build depot.nativeLabel ⟨depot.declared.size⟩ = .ok c ∧ c.flatten.length = 5
      ∧ c.Flattens ∧ (Layout.of [c]).Tiled)
    ∧ (∃ comp, Composition.compose [engine, radio] = .ok comp ∧ comp.layout.Tiled)
    ∧ (jobs 0 {} false truck 0).map (·.site.segment) = [0, 1, 2, 3]
    ∧ (depot.twin 0).storage.length = (depot.twin 0).layout.segments.length := by
  have hkept : ∀ c ∈ [engine, radio, truck], depot.Keeps c := stocked_attained.2
  obtain ⟨hbuilds, hcomposes, hfills⟩ := segments_tiled depot_attained
  refine ⟨?_, ?_, ?_⟩
  · have hbuild : ∃ c, convoy.build depot.nativeLabel ⟨depot.declared.size⟩ = .ok c
        ∧ c.flatten.length = 5 := ⟨_, rfl, rfl⟩
    obtain ⟨c, hc, hcount⟩ := hbuild
    have htruck : ∀ p ∈ convoy.parents, depot.Keeps p :=
      List.forall_mem_singleton.mpr (hkept truck (by simp))
    exact ⟨c, hc, hcount, hbuilds convoy c htruck hc⟩
  · have hcompose : ∃ comp, Composition.compose [engine, radio] = .ok comp := ⟨_, rfl⟩
    obtain ⟨comp, hcomp⟩ := hcompose
    have hbases : ∀ b ∈ [engine, radio], depot.Keeps b :=
      fun b hb => hkept b (List.mem_append_left [truck] hb)
    exact ⟨comp, hcomp, (hcomposes _ comp hbases hcomp).2.1⟩
  · obtain ⟨-, hsegments, -, hstorage⟩ :=
      hfills (.exhausted .memo) 0 0 {} false ⟨truck, 0, 4⟩ rfl
    exact ⟨hsegments, hstorage (.inl ⟨.dynamic 0, by simp, rfl⟩)⟩

end TwinObject
