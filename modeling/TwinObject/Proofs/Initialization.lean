/-
Initialization.  An instance has a flag for each of its native bases, and every way to
initialize them goes by these flags: a base is constructed only where its flag is not set,
the flag is set when all of its segments are built, and it stays set until the release.
-/
import TwinObject.Proofs.Declarations
import TwinObject.Proofs.Flags
import TwinObject.Proofs.Handles

namespace TwinObject

open Hold

namespace Construction

variable {h h' : Host} {w u : World} {R : Hold} {t : TwinId} {index : Nat} {g : ArgGroup}
  {fromDerived : Bool} {e : Ending Failure Unit}

section Calls

variable {groups : List ArgGroup} {start count : Nat}

/-- The construction of one base among several, of which the other groups are given away
with its own. -/
theorem constructGroup_at_once {others : List Handle} (hsafe : h.Safe h') (hh : h.Delivers)
    (hlent : Lends R t) (hattained : Attained w (R + ofHandles others + ofHandles g.handles))
    (hrun : Run.unwinding others (Run.holding g.handles (constructOnce h t index g)) w
      = .ended e u) :
    (∃ G, Attained u (R + G) ∧ ∀ a, e = .value a → G = ofHandles others)
      ∧ (e ≠ .value () ∧ (u.twin t).constructed = (w.twin t).constructed
        ∨ e = .value () ∧ Marks t index 1 w u) := by
  obtain ⟨hleaves, -⟩ := (Run.Ensures.unwinding_taking (Run.Ensures.holding
    (constructOnce_safe (w := w) hsafe hlent.left.left index (LendsAll.self _).right))).at_once
    (hattained.cast (add_assoc ..).symm) hrun
  obtain ⟨G, hthere, hG⟩ := hleaves.attained
  obtain ⟨x, hheld, hstill⟩ := Run.ended_of_unwinding hrun
  obtain ⟨v, honce, rfl⟩ := Run.ended_of_holding hheld
  have hflags : (u.twin t).constructed = (v.twin t).constructed :=
    flags_of_still ((World.Still.drop v _).trans hstill) (hthere.alive_of_lent hlent.left)
  refine ⟨⟨G, hthere, fun a ha => (hG a ha).trans (add_zero _)⟩, ?_⟩
  rcases constructOnce_at_once hsafe hh hattained hlent.left.left (LendsAll.self _).right honce with
    ⟨hnot, hsame⟩ | ⟨rfl, hmarks, -⟩
  · exact .inl ⟨hnot, hflags.trans hsame⟩
  · exact .inr ⟨rfl, hmarks.congr rfl hflags.symm⟩

/-- Bases are constructed in order up to the first that fails, all of them if none does. -/
theorem constructEach_at_once (hsafe : h.Safe h') (hh : h.Delivers) (hlent : Lends R t)
    (hattained : Attained w (R + ofHandles (groups.flatMap ArgGroup.handles)))
    (hrun : constructEach h t groups (List.range' start count) w = .ended e u) :
    ∃ k ≤ count, Marks t start k w u ∧ (e = .value () ↔ k = count) := by
  induction count generalizing w start groups with
  | zero =>
      cases hrun
      have hdropped := hattained.along (G := 0) fun S _ =>
        (Path.drop (groups.flatMap ArgGroup.handles)).cast rfl (add_zero (S + R))
      have halive := hdropped.1.alive_of_lent hlent.left
      exact ⟨0, Nat.le_refl _, .none (flags_of_still (.drop w _) halive), by simp⟩
  | succ count ih =>
      rw [List.range'_succ] at hrun
      have hsplit : groups.flatMap ArgGroup.handles
          = (groups.headD {}).handles ++ groups.tail.flatMap ArgGroup.handles := by
        cases groups with
        | nil => rfl
        | cons g groups => exact List.flatMap_cons
      rw [hsplit, ofHandles_append, add_comm (ofHandles _), ← add_assoc] at hattained
      rcases Run.ended_of_seq hrun with ⟨hnot, hfirst⟩ | ⟨v, hfirst, hnext⟩
      · obtain ⟨-, ⟨-, hsame⟩ | ⟨heq, -⟩⟩ := constructGroup_at_once hsafe hh hlent hattained hfirst
        · exact ⟨0, Nat.zero_le _, .none hsame, by simp [hnot]⟩
        · exact absurd heq hnot
      · obtain ⟨⟨G, hthere, hG⟩, ⟨hnot, -⟩ | ⟨-, hmarks⟩⟩ :=
          constructGroup_at_once hsafe hh hlent hattained hfirst
        · exact absurd rfl hnot
        · obtain ⟨k, hk, hrest, hiff⟩ := ih (hthere.cast (by rw [hG () rfl])) hnext
          refine ⟨k + 1, Nat.succ_le_succ hk, ?_, ?_⟩
          · rw [Nat.add_comm]
            exact hmarks.trans hrest
          · rw [hiff, Nat.add_right_cancel_iff]

/-- Only instances of dynamic classes have their bases initialized. -/
def notDynamic (a : Twin) : Failure :=
  .constructionAccess
    ("'" ++ a.name ++ "' is not a dynamic subclass; base initialization is not available")

/-- There may be no more groups of arguments than bases. -/
def tooMany (a : Twin) (groups : Nat) : Failure :=
  .typeMismatch ("argument groups of '" ++ a.name ++ "'")
    ("at most " ++ toString a.layout.baseCount ++ " groups") (toString groups ++ " groups")

theorem requireDynamic_eq (t : TwinId) (w : World) : requireDynamic t w
    = .ended (if (w.twin t).kind.fromDerived then .value () else .raised (notDynamic (w.twin t)))
      w := by
  change (if (w.twin t).kind.fromDerived then _ else _ : Run Failure Unit) w = _
  split <;> rfl

theorem baseCountFor_eq (t : TwinId) (n : Nat) (w : World) : baseCountFor t n w
    = .ended (if (w.twin t).kind.fromDerived then
          if (w.twin t).layout.baseCount < n then .raised (tooMany (w.twin t) n)
          else .value (w.twin t).layout.baseCount
        else .raised (notDynamic (w.twin t))) w := by
  have hdynamic := requireDynamic_eq t w
  unfold baseCountFor
  split at hdynamic
  · rw [Run.bind_value hdynamic, if_pos ‹_›]
    change (if n > (w.twin t).layout.baseCount then _ else _ : Run Failure Nat) w = _
    split <;> rfl
  · rw [Run.bind_raised hdynamic, if_neg ‹_›]

/-- Calls that do not fit the instance are refused before any base is constructed. -/
theorem superGroups_eq (t : TwinId) (groups : List ArgGroup) (w : World) : superGroups h t groups w
    = if (w.twin t).kind.fromDerived then
        if (w.twin t).layout.baseCount < groups.length then
          .ended (.raised (tooMany (w.twin t) groups.length))
            (w.drop (groups.flatMap ArgGroup.handles))
        else constructEach h t groups (List.range (w.twin t).layout.baseCount) w
      else .ended (.raised (notDynamic (w.twin t)))
        (w.drop (groups.flatMap ArgGroup.handles)) := by
  have hcount := baseCountFor_eq t groups.length w
  unfold superGroups
  split at hcount
  · split at hcount
    · rw [if_pos ‹_›, if_pos ‹_›]
      exact Run.bind_raised (Run.unwinding_raised hcount)
    · rw [if_pos ‹_›, if_neg ‹_›]
      exact Run.bind_value (Run.unwinding_value hcount)
  · rw [if_neg ‹_›]
    exact Run.bind_raised (Run.unwinding_raised hcount)

/-- Of the bases of an instance those before the first failure come to be constructed. -/
theorem superGroups_at_once (hsafe : h.Safe h') (hh : h.Delivers) (hlent : Lends R t)
    (hattained : Attained w (R + ofHandles (groups.flatMap ArgGroup.handles)))
    (hrun : superGroups h t groups w = .ended e u) :
    ∃ k ≤ (w.twin t).layout.baseCount, Marks t 0 k w u
      ∧ (e = .value () → k = (w.twin t).layout.baseCount) := by
  obtain ⟨hleaves, -⟩ := (superGroups_safe (w := w) hsafe hlent groups).at_once hattained hrun
  obtain ⟨G, hthere, -⟩ := hleaves.attained
  have halive := hthere.alive_of_lent hlent.left
  rw [superGroups_eq] at hrun
  split at hrun
  · split at hrun
    · cases hrun
      exact ⟨0, Nat.zero_le _, .none (flags_of_still (.drop w _) halive), nofun⟩
    · rw [List.range_eq_range'] at hrun
      obtain ⟨k, hk, hmarks, hiff⟩ := constructEach_at_once hsafe hh hlent hattained hrun
      exact ⟨k, hk, hmarks, hiff.mp⟩
  · cases hrun
    exact ⟨0, Nat.zero_le _, .none (flags_of_still (.drop w _) halive), nofun⟩

/-- The groups of arguments for the bases of an instance: of several bases each gets a tuple
of its own. -/
def argGroups (a : Twin) (census : Census) (args : List DynValue) :
    Except Failure (List ArgGroup) :=
  if a.layout.baseCount > 1 then groupsOf census a.name 0 args
  else .ok [{ positional := args }]

/-- The first group that is no tuple is the one that is complained of. -/
theorem groupsOf_mismatch {census : Census} {name : String} {before after : List DynValue}
    {v : DynValue} (hbefore : ∀ b ∈ before, ∃ items, b = .tuple items)
    (hv : ∀ items, v ≠ .tuple items) (i : Nat) :
    groupsOf census name i (before ++ v :: after) = .error (.typeMismatch
      ("argument group " ++ toString (i + before.length) ++ " of '" ++ name ++ "'") "tuple"
      (v.typeName census)) := by
  induction before generalizing i with
  | nil =>
      cases v with
      | tuple items => exact absurd rfl (hv items)
      | _ => rfl
  | cons b before ih =>
      obtain ⟨items, rfl⟩ := hbefore b List.mem_cons_self
      have hrest := ih (fun b hb => hbefore b (List.mem_cons_of_mem _ hb)) (i + 1)
      rw [List.cons_append, groupsOf, hrest, List.length_cons, Nat.add_right_comm, Nat.add_assoc]
      rfl

theorem handles_argGroups {a : Twin} {census : Census} {args : List DynValue}
    (hgroups : argGroups a census args = .ok groups) :
    groups.flatMap ArgGroup.handles = args.flatMap DynValue.handles := by
  unfold argGroups at hgroups
  split at hgroups
  · exact handles_groupsOf hgroups
  · cases hgroups
    simp [ArgGroup.handles]

/-- A group that is no tuple is refused at once. -/
theorem superInit_eq (t : TwinId) (args : List DynValue) (w : World) : superInit h t args w
    = match argGroups (w.twin t) w.census args with
      | .error f => .ended (.raised f) w
      | .ok groups => superGroups h t groups (w.retainAll (groups.flatMap ArgGroup.handles)) := by
  have hcourse : superInit h t args w = (if (w.twin t).layout.baseCount > 1 then
      Run.ofExcept (groupsOf w.census (w.twin t).name 0 args) >>= fun groups =>
        Run.modify (·.retainAll (groups.flatMap ArgGroup.handles)) >>= fun _ =>
          superGroups h t groups
    else pure [{ positional := args }] >>= fun groups =>
        Run.modify (·.retainAll (groups.flatMap ArgGroup.handles)) >>= fun _ =>
          superGroups h t groups : Run Failure Unit) w := rfl
  rw [hcourse, argGroups]
  split
  · cases groupsOf w.census (w.twin t).name 0 args <;> rfl
  · rfl

/-- To take handles to what is lent leaves an instance as it is. -/
theorem rests_of_retainAll {hs : List Handle} (hattained : Attained w R) (hlent : Lends R t)
    (hhandles : LendsAll R hs) : ((w.retainAll hs).twin t).kind = (w.twin t).kind
      ∧ ((w.retainAll hs).twin t).constructed = (w.twin t).constructed := by
  have halive := (hattained.retainAll hhandles).alive_of_lent hlent.left
  obtain ⟨hrests, hlive⟩ := (World.Still.retainAll w hs).twin halive
  exact ⟨hrests.kind, hrests.constructed hlive⟩

/-- A group that is no tuple is refused before anything else happens. -/
theorem superInit_untupled {before after : List DynValue} {v : DynValue}
    (hcount : 1 < (w.twin t).layout.baseCount) (hbefore : ∀ b ∈ before, ∃ items, b = .tuple items)
    (hv : ∀ items, v ≠ .tuple items) : superInit h t (before ++ v :: after) w
      = .ended (.raised (.typeMismatch
          ("argument group " ++ toString before.length ++ " of '" ++ (w.twin t).name ++ "'") "tuple"
          (v.typeName w.census))) w := by
  rw [superInit_eq, argGroups, if_pos hcount, groupsOf_mismatch hbefore hv, Nat.zero_add]

theorem groupsOf_tuples (census : Census) (name : String) {args : List DynValue}
    (hargs : ∀ a ∈ args, ∃ items, a = .tuple items) (i : Nat) :
    ∃ groups : List ArgGroup, groupsOf census name i args = .ok groups
      ∧ groups.length = args.length := by
  induction args generalizing i with
  | nil => exact ⟨[], rfl, rfl⟩
  | cons a args ih =>
      obtain ⟨items, rfl⟩ := hargs a List.mem_cons_self
      obtain ⟨groups, hgroups, hlength⟩ :=
        ih (fun b hb => hargs b (List.mem_cons_of_mem _ hb)) (i + 1)
      refine ⟨{ positional := items } :: groups, ?_, congrArg Nat.succ hlength⟩
      rw [groupsOf, hgroups]
      rfl

/-- More tuples than bases are refused before any base is constructed. -/
theorem superInit_excess {args : List DynValue} (hattained : Attained w R) (hlent : Lends R t)
    (hhandles : LendsAll R (args.flatMap DynValue.handles))
    (hdynamic : (w.twin t).kind.fromDerived = true) (hcount : 1 < (w.twin t).layout.baseCount)
    (hargs : ∀ a ∈ args, ∃ items, a = .tuple items)
    (hmore : (w.twin t).layout.baseCount < args.length) :
    ∃ u, superInit h t args w = .ended (.raised (tooMany (w.twin t) args.length)) u
      ∧ w.Still u := by
  obtain ⟨groups, hgroups, hlength⟩ :=
    groupsOf_tuples w.census (w.twin t).name hargs 0
  have hgiven : LendsAll R (groups.flatMap ArgGroup.handles) := by
    rwa [handles_groupsOf hgroups]
  obtain ⟨hkind, -⟩ := rests_of_retainAll hattained hlent hgiven
  have hlayout : ((w.retainAll (groups.flatMap ArgGroup.handles)).twin t).layout
      = (w.twin t).layout := congrArg Kind.layout hkind
  have hstill : w.Still ((w.retainAll (groups.flatMap ArgGroup.handles)).drop
      (groups.flatMap ArgGroup.handles)) := (World.Still.retainAll w _).trans (.drop _ _)
  refine ⟨_, ?_, hstill⟩
  rw [superInit_eq, argGroups, if_pos hcount, hgroups]
  dsimp only
  rw [superGroups_eq, hkind, if_pos hdynamic, hlayout, hlength, if_pos hmore, tooMany, Twin.name,
    hkind, hlayout]
  rfl

theorem superInit_at_once (hsafe : h.Safe h') (hh : h.Delivers) (hlent : Lends R t)
    {args : List DynValue} (hargs : LendsAll R (args.flatMap DynValue.handles))
    (hattained : Attained w R) (hrun : superInit h t args w = .ended e u) :
    ∃ k ≤ (w.twin t).layout.baseCount, Marks t 0 k w u
      ∧ (e = .value () → k = (w.twin t).layout.baseCount) := by
  rw [superInit_eq] at hrun
  split at hrun
  · cases hrun
    exact ⟨0, Nat.zero_le _, .none rfl, nofun⟩
  · rename_i groups hgroups
    have hgiven : LendsAll R (groups.flatMap ArgGroup.handles) :=
      handles_argGroups hgroups ▸ hargs
    obtain ⟨hkind, hflags⟩ := rests_of_retainAll hattained hlent hgiven
    obtain ⟨k, hk, hmarks, hall⟩ :=
      superGroups_at_once hsafe hh hlent (hattained.retainAll hgiven) hrun
    rw [Twin.layout, hkind] at hk hall
    exact ⟨k, hk, hmarks.congr hflags rfl, hall⟩

/-- Where no class of the chain has an initializer the arguments go to the bases, if there
are any. -/
theorem initializeAs_at_once (hsafe : h.Safe h') (hh : h.Delivers) (hlent : Lends R t)
    {entry : Entry} {c : DynamicClass} {args : List DynValue} {e : Ending Thrown Unit}
    (hnone : c.findInitializer? = none) (hargs : LendsAll R (args.flatMap DynValue.handles))
    (hattained : Attained w R) (hrun : initializeAs h entry c t args w = .ended e u) :
    ∃ k ≤ (w.twin t).layout.baseCount, Marks t 0 k w u
      ∧ (e = .value () → args ≠ [] → k = (w.twin t).layout.baseCount) := by
  obtain ⟨l, v, hinside, rfl⟩ := Run.ended_of_locked hrun
  rw [hnone] at hinside
  by_cases hempty : args = []
  · subst hempty
    cases hinside
    exact ⟨0, Nat.zero_le _, .none rfl, fun _ hne => absurd rfl hne⟩
  · rw [if_neg (by rwa [List.isEmpty_iff])] at hinside
    obtain ⟨e', hsuper, he⟩ := Run.ended_of_mapError hinside
    obtain ⟨hthere, -⟩ := hattained.turn (World.alike_setLock w c.interp l)
    obtain ⟨k, hk, hmarks, hall⟩ := superInit_at_once hsafe hh hlent hargs hthere hsuper
    exact ⟨k, hk, hmarks.congr rfl rfl, fun hvalue _ => hall (he () hvalue)⟩

/-- Only a base of the instance itself can be initialized directly. -/
def notDirectBase (a : Twin) (c : NativeClass) : Failure :=
  .constructionAccess ("'" ++ c.name ++ "' is not a direct base of '" ++ a.name ++ "'")

/-- An abstract base cannot be initialized directly. -/
def abstractBase (a : Twin) (c : NativeClass) : Failure :=
  .constructionAccess
    ("base '" ++ c.name ++ "' is abstract and cannot be initialized directly; "
      ++ "use super() to initialize '" ++ a.name ++ "'")

theorem initBase_eq (t : TwinId) (c : NativeClass) (args : List DynValue) (w : World) :
    initBase h t c args w
      = if (w.twin t).kind.fromDerived then
          match (w.twin t).layout.baseIndex? c with
          | none => .ended (.raised (notDirectBase (w.twin t) c)) w
          | some index =>
              if c.isAbstract then .ended (.raised (abstractBase (w.twin t) c)) w
              else
                let g : ArgGroup := { positional := args }
                Run.holding g.handles (constructOnce h t index g) (w.retainAll g.handles)
        else .ended (.raised (notDynamic (w.twin t))) w := by
  have hdynamic := requireDynamic_eq t w
  unfold initBase
  split at hdynamic
  · rw [Run.bind_value hdynamic, if_pos ‹_›]
    change (match (w.twin t).layout.baseIndex? c with | none => _ | some index => _ : Run _ _) w = _
    cases (w.twin t).layout.baseIndex? c with
    | none => rfl
    | some index =>
        dsimp only
        split <;> rfl
  · rw [Run.bind_raised hdynamic, if_neg ‹_›]

theorem initBase_at_once (hsafe : h.Safe h') (hh : h.Delivers) (hlent : Lends R t)
    {c : NativeClass} {args : List DynValue} (hargs : LendsAll R (args.flatMap DynValue.handles))
    (hattained : Attained w R) (hrun : initBase h t c args w = .ended e u) :
    ∃ index k, k ≤ 1 ∧ Marks t index k w u
      ∧ (e = .value () → (w.twin t).layout.baseIndex? c = some index ∧ k = 1) := by
  obtain ⟨hleaves, -⟩ := (initBase_safe (w := w) hsafe hlent c hargs).at_once
    (hattained.cast (add_zero R)) hrun
  obtain ⟨G, hthere, -⟩ := hleaves.attained
  have halive := hthere.alive_of_lent hlent.left
  rw [initBase_eq] at hrun
  split at hrun
  · cases hindex : (w.twin t).layout.baseIndex? c with
    | none =>
        rw [hindex] at hrun
        cases hrun
        exact ⟨0, 0, Nat.zero_le 1, .none rfl, nofun⟩
    | some index =>
        rw [hindex] at hrun
        dsimp only at hrun
        split at hrun
        · cases hrun
          exact ⟨0, 0, Nat.zero_le 1, .none rfl, nofun⟩
        · have hhandles : ({ positional := args } : ArgGroup).handles
              = args.flatMap DynValue.handles := by
            simp [ArgGroup.handles]
          have hgiven : LendsAll R ({ positional := args } : ArgGroup).handles := hhandles ▸ hargs
          obtain ⟨-, hretained⟩ := rests_of_retainAll hattained hlent hgiven
          obtain ⟨v, honce, rfl⟩ := Run.ended_of_holding hrun
          have hflags := flags_of_still (.drop v _) halive
          rcases constructOnce_at_once hsafe hh (hattained.retainAll hgiven) hlent.left
            (LendsAll.self _).right honce with ⟨hnot, hsame⟩ | ⟨rfl, hmarks, -⟩
          · refine ⟨index, 0, Nat.zero_le 1, .none ?_, fun heq => absurd heq hnot⟩
            rw [hflags, hsame, hretained]
          · exact ⟨index, 1, Nat.le_refl 1, hmarks.congr hretained hflags.symm,
              fun _ => ⟨rfl, rfl⟩⟩
  · cases hrun
    exact ⟨0, 0, Nat.zero_le 1, .none rfl, nofun⟩

end Calls

section Instances

/-- The bases that no initializer constructed are those whose flags are not set. -/
theorem mem_pending {flags : List Bool} {i : Nat} :
    i ∈ flags.zipIdx.filterMap (fun (done, index) => if done then none else some index)
      ↔ flags[i]? = some false := by
  refine ⟨unmarked_of_pending, fun hunset => ?_⟩
  exact List.mem_filterMap.mpr ⟨(false, i), List.mk_mem_zipIdx_iff_getElem?.mpr hunset, rfl⟩

theorem constructPending_at_once (hsafe : h.Safe h') (hlent : Lends R t) {pending : List Nat}
    (hnodup : pending.Nodup) (hattained : Attained w R)
    (hunset : ∀ i ∈ pending, (w.twin t).constructed[i]? = some false)
    (hrun : (pending.forM fun index => constructBase h t index {} true) w
      = .ended (.value ()) u) (i : Nat) :
    (u.twin t).constructed[i]? = if i ∈ pending then some true else (w.twin t).constructed[i]? := by
  induction pending generalizing w with
  | nil =>
      cases hrun
      rw [if_neg List.not_mem_nil]
  | cons j rest ih =>
      obtain ⟨hnot, hnodup⟩ := List.nodup_cons.mp hnodup
      have hj := hunset j List.mem_cons_self
      rcases Run.ended_of_seq hrun with ⟨hnot, -⟩ | ⟨v, hfirst, hrest⟩
      · exact absurd rfl hnot
      · obtain ⟨hflags, -⟩ := flags_of_constructBase hsafe hattained hlent LendsAll.nil hfirst
        obtain ⟨hleaves, -⟩ := (constructBase_ensures hsafe hlent true LendsAll.nil fun htrue => by
          rw [hj] at htrue
          cases htrue).at_once (hattained.cast (add_zero R)) hfirst
        obtain ⟨G, hthere, hG⟩ := hleaves.attained
        have hstill : ∀ k ∈ rest, (v.twin t).constructed[k]? = some false := fun k hk => by
          have hjk : j ≠ k := fun heq => hnot (heq ▸ hk)
          rw [hflags, List.getElem?_set_ne hjk]
          exact hunset k (List.mem_cons_of_mem j hk)
        have hlater := ih hnodup (hthere.cast (by rw [hG () rfl, add_zero])) hstill hrest
        rw [hlater, hflags]
        by_cases hi : i ∈ rest
        · rw [if_pos hi, if_pos (List.mem_cons_of_mem j hi)]
        · rw [if_neg hi, List.getElem?_set]
          by_cases hij : j = i
          · rw [if_pos hij, if_pos (hij ▸ (List.getElem?_eq_some_iff.mp hj).1),
              if_pos (hij ▸ List.mem_cons_self)]
          · rw [if_neg hij, if_neg fun hmem => (List.mem_cons.mp hmem).elim (hij ·.symm) hi]

/-- When the default construction of what is left is done every base is constructed. -/
theorem finish_at_once (hsafe : h.Safe h') (hlent : Lends R t) (hattained : Attained w R)
    (hrun : finish h t w = .ended (.value ()) u) : (u.twin t).isInitialized = true := by
  have hflags := constructPending_at_once hsafe hlent (nodup_pending _) hattained
    (fun i hi => unmarked_of_pending hi) hrun
  refine List.all_eq_true.mpr fun flag hmem => ?_
  obtain ⟨i, hi⟩ := List.getElem?_of_mem hmem
  rw [hflags] at hi
  split at hi
  · exact (Option.some.inj hi).symm
  · rename_i hnot
    cases flag with
    | true => rfl
    | false => exact absurd (mem_pending.mpr hi) hnot

/-- What a new instance is left with by its initializer is constructed by default. -/
theorem initialize_at_once (hsafe : h.Safe h') {c : DynamicClass} {args : List DynValue}
    (hlent : Lends R t) (hinterp : c.interp < w.interps.size) (hlives : w.Lives t c.interp)
    (hargs : LendsAll R (args.flatMap DynValue.handles)) (hattained : Attained w R)
    (hrun : (runInitializer h c t args >>= fun _ => Run.mapError Failure.raise (finish h t)) w
      = .ended (.value ()) u) : (u.twin t).isInitialized = true := by
  rcases Run.ended_of_seq hrun with ⟨hnot, -⟩ | ⟨v, hinit, hfinished⟩
  · exact absurd rfl hnot
  · obtain ⟨hleaves, -⟩ := (runInitializer_safe hsafe hlent hinterp hlives hargs).at_once
      (hattained.cast (add_zero R)) hinit
    obtain ⟨G, hthere, -⟩ := hleaves.attained
    obtain ⟨e, hdone, he⟩ := Run.ended_of_mapError hfinished
    cases he () rfl
    exact finish_at_once hsafe hlent.left hthere hdone

/-- A new instance has all of its bases constructed. -/
theorem newDynamic_at_once (hsafe : h.Safe h') {c : DynamicClass} {args : List DynValue}
    (hkind : Token.kind (.dynamic c) ∈ R) (hargs : LendsAll R (args.flatMap DynValue.handles))
    (hattained : Attained w R) (hrun : newDynamic h c args w = .ended (.value t) u) :
    w.twins[t]? = none ∧ (u.twin t).isInitialized = true := by
  have hmissing : c.missingOverride? = none := by
    cases hmissing : c.missingOverride? with
    | none => rfl
    | some slot =>
        rw [newDynamic, hmissing] at hrun
        cases hrun
  have hinterp : c.interp < w.interps.size := hattained.reached fun S hreach =>
    hreach.invariant.interp_of_lent (Multiset.mem_add.mpr (.inr hkind))
  have hhouses : w.Houses c.interp (.dynamic c) := by
    refine ⟨hinterp, fun c' hc' => ?_⟩
    cases hc'
    rfl
  have hcreate : Act.Safe R 0 Hold.dynamic w fun w =>
      (w.create c.interp (.dynamic c) .dynamic).swap :=
    World.create_safe hkind hmissing hhouses
  obtain ⟨hcreated, hpersists⟩ := hattained.step hcreate
  have hlives : (w.create c.interp (.dynamic c) .dynamic).1.Lives
      (w.create c.interp (.dynamic c) .dynamic).2 c.interp :=
    ⟨_, getElem?_create w c.interp (.dynamic c) .dynamic, rfl⟩
  have hnew : w.twins[(w.create c.interp (.dynamic c) .dynamic).2]? = none := by
    obtain ⟨twins, hframe, hsize⟩ := w.retainAll_frame
      (Twin.fresh c.interp (.dynamic c) .dynamic).contents
    rw [World.create, World.admitTwin, hframe]
    exact Array.getElem?_eq_none (Nat.le_of_eq hsize.symm)
  obtain ⟨⟨hthere, -⟩, -⟩ := (newDynamic_safe (w := w) hsafe hkind hargs).at_once
    (hattained.cast (add_zero R)) hrun
  rw [newDynamic, hmissing] at hrun
  obtain ⟨_, _, hact, hrun⟩ := Run.ended_of_following hrun
  cases hact
  obtain ⟨e, v, hbuilt, hreturned⟩ := Run.ended_of_following hrun
  obtain ⟨x, hbody, hstill⟩ := Run.ended_of_unwinding hbuilt
  cases e with
  | value r =>
      cases hreturned
      refine ⟨hnew, ?_⟩
      rw [Twin.isInitialized, flags_of_still hstill (hthere.alive_of_lent (.of_dynamic _))]
      exact initialize_at_once hsafe (.of_dynamic _) (hinterp.trans_le hpersists.interps) hlives
        hargs.left hcreated hbody
  | _ => cases hreturned

end Instances

section Afterwards

/-- Of an initialized instance the flags of all bases are set. -/
theorem flag_of_initialized (hattained : Attained w R) (hlent : Lends R t)
    (hinit : (w.twin t).isInitialized = true) (hindex : index < (w.twin t).layout.baseCount) :
    (w.twin t).constructed[index]? = some true := by
  obtain ⟨flag, hflag⟩ := flag_of_base hattained hlent (List.getElem?_eq_getElem hindex)
  exact hflag.trans
    (congrArg some (List.all_eq_true.mp hinit flag (List.mem_of_getElem? hflag)))

theorem superGroups_refused {groups : List ArgGroup} (hattained : Attained w R)
    (hlent : Lends R t) (hinit : (w.twin t).isInitialized = true)
    (hbase : 0 < (w.twin t).layout.baseCount) :
    ∃ f u, superGroups h t groups w = .ended (.raised f) u ∧ w.Still u := by
  rw [superGroups_eq]
  split
  · split
    · exact ⟨_, _, rfl, .drop w _⟩
    · obtain ⟨n, hn⟩ := Nat.exists_eq_succ_of_ne_zero (Nat.ne_of_gt hbase)
      have hrefused : constructOnce h t 0 (groups.headD {}) w = _ :=
        constructOnce_refused (flag_of_initialized hattained hlent hinit hbase)
      rw [hn, List.range_succ_eq_map, constructEach]
      exact ⟨_, _, Run.bind_raised (Run.unwinding_raised (Run.holding_ended hrefused)),
        (World.Still.drop w _).trans (.drop _ _)⟩
  · exact ⟨_, _, rfl, .drop w _⟩

theorem superInit_refused {args : List DynValue} (hattained : Attained w R) (hlent : Lends R t)
    (hargs : LendsAll R (args.flatMap DynValue.handles))
    (hinit : (w.twin t).isInitialized = true) (hbase : 0 < (w.twin t).layout.baseCount) :
    ∃ f u, superInit h t args w = .ended (.raised f) u ∧ w.Still u := by
  rw [superInit_eq]
  split
  · exact ⟨_, _, rfl, .refl w⟩
  · rename_i groups hgroups
    have hgiven : LendsAll R (groups.flatMap ArgGroup.handles) :=
      handles_argGroups hgroups ▸ hargs
    obtain ⟨hkind, hflags⟩ := rests_of_retainAll hattained hlent hgiven
    rw [Twin.isInitialized, ← hflags] at hinit
    rw [Twin.layout, ← hkind] at hbase
    obtain ⟨f, u, hrun, hstill⟩ : ∃ f u, superGroups h t groups
        (w.retainAll (groups.flatMap ArgGroup.handles)) = .ended (.raised f) u ∧ _ :=
      superGroups_refused (hattained.retainAll hgiven) hlent.left hinit hbase
    exact ⟨f, u, hrun, (World.Still.retainAll w _).trans hstill⟩

theorem initBase_refused {c : NativeClass} {args : List DynValue} (hattained : Attained w R)
    (hlent : Lends R t) (hargs : LendsAll R (args.flatMap DynValue.handles))
    (hinit : (w.twin t).isInitialized = true) :
    ∃ f u, initBase h t c args w = .ended (.raised f) u ∧ w.Still u := by
  rw [initBase_eq]
  split
  · cases hindex : (w.twin t).layout.baseIndex? c with
    | none => exact ⟨_, _, rfl, .refl w⟩
    | some index =>
        dsimp only
        split
        · exact ⟨_, _, rfl, .refl w⟩
        · have hgiven : LendsAll R ({ positional := args } : ArgGroup).handles := by
            simpa [ArgGroup.handles] using hargs
          have hset := flag_of_initialized hattained hlent hinit
            (List.findIdx?_eq_some_iff_getElem.mp hindex).1
          rw [← (rests_of_retainAll hattained hlent hgiven).2] at hset
          exact ⟨_, _, Run.holding_ended (constructOnce_refused hset),
            (World.Still.retainAll w _).trans (.drop _ _)⟩
  · exact ⟨_, _, rfl, .refl w⟩

end Afterwards

/-- A call that initializes native bases of an instance: all of them from tuples of arguments
or from groups, or a single one. -/
inductive InitCall where
  | superInit (args : List DynValue)
  | superGroups (groups : List ArgGroup)
  | initBase (c : NativeClass) (args : List DynValue)

namespace InitCall

def run (h : Host) (t : TwinId) : InitCall → Run Failure Unit
  | superInit args => Construction.superInit h t args
  | superGroups groups => Construction.superGroups h t groups
  | initBase c args => Construction.initBase h t c args

/-- The handles that a call is lent. -/
def lent : InitCall → List Handle
  | superInit args | initBase _ args => args.flatMap DynValue.handles
  | superGroups _ => []

/-- The handles that are given away to a call. -/
def given : InitCall → List Handle
  | superGroups groups => groups.flatMap ArgGroup.handles
  | _ => []

/-- The bases that a call has constructed when it succeeds, given by the first and how many
they are. -/
def Target (a : Twin) (start count : Nat) : InitCall → Prop
  | initBase c _ => a.layout.baseIndex? c = some start ∧ count = 1
  | _ => start = 0 ∧ count = a.layout.baseCount

variable {call : InitCall}

theorem safe (hsafe : h.Safe h') (hlent : Lends R t) (hargs : LendsAll R call.lent) :
    Run.Safe R (ofHandles call.given) (fun _ => 0) w (call.run h t) (call.run h' t) := by
  cases call with
  | superInit args => exact superInit_safe hsafe hlent hargs
  | superGroups groups => exact superGroups_safe hsafe hlent groups
  | initBase c args => exact initBase_safe hsafe hlent c hargs

/-- A call constructs bases one after another that were not constructed before, and all that
it is for if it succeeds. -/
theorem at_once (hsafe : h.Safe h') (hh : h.Delivers) (hlent : Lends R t)
    (hargs : LendsAll R call.lent) (hattained : Attained w (R + ofHandles call.given))
    (hrun : call.run h t w = .ended e u) :
    ∃ start count, Marks t start count w u
      ∧ (e = .value () → call.Target (w.twin t) start count) := by
  cases call with
  | superInit args =>
      obtain ⟨k, -, hmarks, hall⟩ := superInit_at_once hsafe hh hlent hargs
        (hattained.cast (add_zero R).symm) hrun
      exact ⟨0, k, hmarks, fun he => ⟨rfl, hall he⟩⟩
  | superGroups groups =>
      obtain ⟨k, -, hmarks, hall⟩ := superGroups_at_once hsafe hh hlent hattained hrun
      exact ⟨0, k, hmarks, fun he => ⟨rfl, hall he⟩⟩
  | initBase c args =>
      obtain ⟨index, k, -, hmarks, hone⟩ := initBase_at_once hsafe hh hlent hargs
        (hattained.cast (add_zero R).symm) hrun
      exact ⟨index, k, hmarks, hone⟩

/-- On an initialized instance every call is refused, and writes nothing. -/
theorem refused (hsafe : h.Safe h') (hlent : Lends R t) (hargs : LendsAll R call.lent)
    (hattained : Attained w (R + ofHandles call.given))
    (hinit : (w.twin t).isInitialized = true) (hbase : 0 < (w.twin t).layout.baseCount) :
    ∃ f u, call.run h t w = .ended (.raised f) u ∧ (w.twin t).Rests (u.twin t)
      ∧ (u.twin t).stage = .live := by
  obtain ⟨f, u, hrun, hstill⟩ : ∃ f u, call.run h t w = .ended (.raised f) u ∧ w.Still u := by
    cases call with
    | superInit args =>
        exact superInit_refused (hattained.cast (add_zero R).symm) hlent hargs hinit hbase
    | superGroups groups => exact superGroups_refused hattained hlent.left hinit hbase
    | initBase c args =>
        exact initBase_refused (hattained.cast (add_zero R).symm) hlent hargs hinit
  obtain ⟨hleaves, -⟩ := (call.safe (w := w) hsafe hlent hargs).at_once hattained hrun
  obtain ⟨G, hthere, -⟩ := hleaves.attained
  exact ⟨f, u, hrun, hstill.twin (hthere.alive_of_lent hlent.left)⟩

/-- Calls one after another, each run to its end, whether that is a value or an error.  In
between other code runs, as long as the instance stays alive. -/
inductive Chain (h : Host) (t : TwinId) : World → World → Prop
  | nil {w : World} : Chain h t w w
  | call {w v u : World} {R : Hold} {call : InitCall} {e : Ending Failure Unit}
      (hlent : Lends R t) (hargs : LendsAll R call.lent)
      (hattained : Attained w (R + ofHandles call.given)) (hrun : call.run h t w = .ended e v)
      (hrest : Chain h t v u) : Chain h t w u
  | other {w v u : World} {R S : Hold} (halive : w.Alive t) (hlater : Later w R v S)
      (hkept : v.Alive t) (hrest : Chain h t v u) : Chain h t w u

/-- Over any number of calls a flag is set at most once, and never taken back. -/
theorem Chain.advance (hsafe : h.Safe h') (hh : h.Delivers) (hchain : Chain h t w u) :
    Advance (w.twin t).constructed (u.twin t).constructed := by
  induction hchain with
  | nil => exact .refl _
  | call hlent hargs hattained hrun _ ih =>
      obtain ⟨start, count, hmarks, -⟩ := at_once hsafe hh hlent hargs hattained hrun
      exact hmarks.advance.trans ih
  | other halive hlater hkept _ ih =>
      obtain ⟨a, ha, -⟩ := halive
      obtain ⟨b, hb, hlive⟩ := hkept
      have hflags := hlater.flags ha hb hlive
      rw [← World.twin_eq ha, ← World.twin_eq hb] at hflags
      exact hflags.trans ih

end InitCall

/-- A class that could be built has a base, if its parent has one. -/
theorem bases_of_build {d : ClassDecl} {id : ClassId} {interp : InterpId} {warn : Bool}
    {c : DynamicClass} (hbuild : d.build id interp warn = .ok c)
    (hparent : ∀ p, d.base = some (.dynamic p) → p.composition.bases ≠ []) :
    c.composition.bases ≠ [] := by
  obtain ⟨comp, ancestors, hfoundation, -⟩ := ClassDecl.eq_of_build hbuild
  obtain ⟨spec, hspec, -, hbases, -⟩ := ClassDecl.build_spec hbuild
  rw [hbases]
  cases spec with
  | native b => exact List.cons_ne_nil b []
  | composed bs =>
      rintro rfl
      rw [ClassDecl.foundation, hspec] at hfoundation
      cases hfoundation
  | dynamic p => exact hparent p hspec

/-- What holds of the bases of instances when their code runs in a host. -/
structure InitializesOnce (h : Host) : Prop where
  /-- A step sets at most one flag, that of a base whose segments have all been built, and
  takes none back from an instance that stays alive. -/
  steps : ∀ {w u : World} {R S : Hold} {t : TwinId} {a b : Twin}, Transition w R u S →
    w.twins[t]? = some a → u.twins[t]? = some b → b.stage = .live →
    b.constructed = a.constructed ∨ ∃ index base, a.layout.baseRange? index = some base
      ∧ R = S + ofSegments (base.base.flatten.map NativeClass.id)
      ∧ b.constructed = a.constructed.set index true
  /-- However many steps are made, of this thread and of others. -/
  kept : ∀ {w u : World} {R S : Hold} {t : TwinId} {a b : Twin}, Later w R u S →
    w.twins[t]? = some a → u.twins[t]? = some b → b.stage = .live →
    Advance a.constructed b.constructed
  /-- As long as no thread was started no base was constructed over again. -/
  once : ∀ {w : World} {R : Hold}, Attained w R → w.threads.size = 0 →
    ∀ id, w.tell (Event.rebuildsOf id) = 0
  /-- A base that is constructed already is refused, and nothing runs. -/
  refuses : ∀ {w : World} {t : TwinId} {index : Nat} (g : ArgGroup),
    (w.twin t).constructed[index]? = some true → constructOnce h t index g w
      = .ended (.raised (.constructionAccess
          ("base '" ++ ((w.twin t).layout.baseRange? index).elim "" (·.base.name) ++ "' of '"
            ++ (w.twin t).name ++ "' is already initialized"))) w
  /-- Any other base is constructed as a whole, each segment after those before it, or no flag
  is set. -/
  constructs : ∀ {w u : World} {R : Hold} {t : TwinId} {index : Nat} {g : ArgGroup}
    {e : Ending Failure Unit}, Attained w R → Lends R t → LendsAll R g.handles →
    constructOnce h t index g w = .ended e u →
    e ≠ .value () ∧ (u.twin t).constructed = (w.twin t).constructed
      ∨ e = .value () ∧ Constructs h t index g w u
  /-- More groups than bases, and a group that is no tuple, are refused before any base is
  constructed: what was given away is let go, and nothing else happens. -/
  groups : ∀ {w : World} {t : TwinId} {groups : List ArgGroup},
    (w.twin t).kind.fromDerived = true → (w.twin t).layout.baseCount < groups.length →
    superGroups h t groups w = .ended (.raised (tooMany (w.twin t) groups.length))
      (w.drop (groups.flatMap ArgGroup.handles))
  tuples : ∀ {w : World} {R : Hold} {t : TwinId} {args : List DynValue}, Attained w R →
    Lends R t → LendsAll R (args.flatMap DynValue.handles) →
    (w.twin t).kind.fromDerived = true → 1 < (w.twin t).layout.baseCount →
    (∀ a ∈ args, ∃ items, a = .tuple items) → (w.twin t).layout.baseCount < args.length →
    ∃ u, superInit h t args w = .ended (.raised (tooMany (w.twin t) args.length)) u ∧ w.Still u
  untupled : ∀ {w : World} {t : TwinId} {before after : List DynValue} {v : DynValue},
    1 < (w.twin t).layout.baseCount → (∀ b ∈ before, ∃ items, b = .tuple items) →
    (∀ items, v ≠ .tuple items) → superInit h t (before ++ v :: after) w
      = .ended (.raised (.typeMismatch
          ("argument group " ++ toString before.length ++ " of '" ++ (w.twin t).name ++ "'") "tuple"
          (v.typeName w.census))) w
  /-- A call sets the flags of bases one after another that were not constructed before, of all
  that it is for if it succeeds, and no others. -/
  calls : ∀ {w u : World} {R : Hold} {t : TwinId} {call : InitCall} {e : Ending Failure Unit},
    Lends R t → LendsAll R call.lent → Attained w (R + ofHandles call.given) →
    call.run h t w = .ended e u →
    ∃ start count, Marks t start count w u
      ∧ (e = .value () → call.Target (w.twin t) start count)
  /-- So does the initializer of an ancestor that only hands its arguments on. -/
  chained : ∀ {w u : World} {R : Hold} {t : TwinId} {c : DynamicClass} {args : List DynValue}
    {e : Ending Thrown Unit}, Lends R t → c.findInitializer? = none →
    LendsAll R (args.flatMap DynValue.handles) → Attained w R →
    initializeAs h .chained c t args w = .ended e u →
    ∃ k ≤ (w.twin t).layout.baseCount, Marks t 0 k w u
      ∧ (e = .value () → args ≠ [] → k = (w.twin t).layout.baseCount)
  /-- Over any calls, and any code between them, no flag is set twice or taken back. -/
  sequences : ∀ {w u : World} {t : TwinId}, InitCall.Chain h t w u →
    Advance (w.twin t).constructed (u.twin t).constructed
  /-- An instance that was created is new, and has all of its bases constructed. -/
  created : ∀ {w u : World} {R : Hold} {t : TwinId} {c : DynamicClass} {args : List DynValue},
    Token.kind (.dynamic c) ∈ R → LendsAll R (args.flatMap DynValue.handles) → Attained w R →
    newDynamic h c args w = .ended (.value t) u →
    w.twins[t]? = none ∧ (u.twin t).isInitialized = true
  /-- From then on every call fails, and leaves the instance as it was. -/
  afterwards : ∀ {w : World} {R : Hold} {t : TwinId} {call : InitCall}, Lends R t →
    LendsAll R call.lent → Attained w (R + ofHandles call.given) →
    (w.twin t).isInitialized = true → 0 < (w.twin t).layout.baseCount →
    ∃ f u, call.run h t w = .ended (.raised f) u ∧ (w.twin t).Rests (u.twin t)
      ∧ (u.twin t).stage = .live
  /-- There is a base in every class that was built. -/
  based : ∀ {d : ClassDecl} {id : ClassId} {interp : InterpId} {warn : Bool} {c : DynamicClass},
    d.build id interp warn = .ok c →
    (∀ p, d.base = some (.dynamic p) → p.composition.bases ≠ []) → c.composition.bases ≠ []

end Construction

open Construction in
/-- Every way to initialize an instance goes by the flags of its bases: a flag is set once all
segments of its base are built and stays set until the release, a constructed base is refused,
and of a new instance all are constructed.  One thread constructs no base twice; of several,
each of which finds the flag unset, all do. -/
theorem bases_initialized_once (depth : Nat) : InitializesOnce (.nested .memo depth) := by
  have hsafe := Host.nested_safe Dispatcher.memo.noSlot Dispatcher.memo.bare depth
  have hh := Host.nested_delivers depth
  exact {
    steps := Transition.flags
    kept := Later.flags
    once := fun hattained hthreads id => by
      by_contra hagain
      have hbalanced := hattained.reached fun _ hreach => hreach.invariant.balanced.threaded id
      exact absurd (hthreads ▸ hbalanced hagain) (Nat.lt_irrefl 0)
    refuses := fun _ => constructOnce_refused
    constructs := constructOnce_at_once hsafe hh
    groups := fun hdynamic hmore => by rw [superGroups_eq, if_pos hdynamic, if_pos hmore]
    tuples := superInit_excess
    untupled := superInit_untupled
    calls := InitCall.at_once hsafe hh
    chained := fun hlent => initializeAs_at_once hsafe hh hlent
    sequences := InitCall.Chain.advance hsafe hh
    created := newDynamic_at_once hsafe
    afterwards := InitCall.refused hsafe
    based := bases_of_build }

open Session Race in
/-- Two threads that both find the flag of a base unset construct it one after the other, and
both succeed. -/
theorem base_initialized_twice :
    ((after (.nested .memo 8) steps).world.threads.toList.map fun thread =>
        thread.state matches .done (.ok _)) = [true, true]
      ∧ ((after (.nested .memo 8) steps).world.twin 0).constructed = [true]
      ∧ (after (.nested .memo 8) steps).world.tell (Event.buildsOf ⟨0⟩) = 2
      ∧ (after (.nested .memo 8) steps).world.tell (Event.razesOf ⟨0⟩) = 0 := by
  decide +kernel

end TwinObject
