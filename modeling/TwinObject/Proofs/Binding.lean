/-
Binding of constructor arguments.  Every parameter gets its positional argument, the keyword of
its name, or its default; and as every keyword has to be counted, none is lost as long as no two
parameters have the same name.
-/
import TwinObject.Proofs.Selection

namespace TwinObject

namespace Constructor

namespace Supply

def byKeyword : Supply → Bool
  | given _ byKeyword => byKeyword
  | _ => false

def handles : Supply → List Handle
  | given v _ => v.handles
  | _ => []

/-- Whether a parameter gets a value of what is supplied for it. -/
def taken (w : World) (fit : Fit) (p : Param) : Supply → Bool
  | clash => false
  | given v _ => w.takes fit p.type v
  | missing => p.default.any fun d => (d.coerce w.census p.type).isSome

/-- Whether a value is what a parameter gets of what is supplied for it. -/
def Yields (w u : World) (p : Param) (n : NativeValue) : Supply → Prop
  | clash => False
  | given v _ => w.Becomes u v p.type n
  | missing => ∃ d, p.default = some d ∧ d.coerce w.census p.type = some n

end Supply

variable {w u v : World} {context : String} {fit : Fit} {p : Param} {s : Supply}
  {keywords : List (String × DynValue)}

theorem Supply.Yields.along {n : NativeValue} (h : s.Yields w u p n) (hsupply : w.Has s.handles)
    (hduring : w.Rests u) (hafter : u.Rests v) : s.Yields w v p n := by
  cases s with
  | clash => exact h
  | given a byKeyword => exact World.Becomes.along h hsupply (.refl w) hduring hafter
  | missing => exact h

theorem bindParam_rests (context : String) (fit : Fit) (p : Param) (s : Supply) (u : World) :
    u.Rests (bindParam context fit p s u).2 :=
  World.Rests.respected.bindParam context fit p s u

theorem isSome_bindParam (context : String) (fit : Fit) (hsupply : w.Has s.handles)
    (hdefault : w.Has p.handles) (hu : w.Rests u) :
    (bindParam context fit p s u).1.isSome = s.taken w fit p := by
  cases s with
  | clash => rfl
  | given v byKeyword =>
      have hconverted := Crossing.isSome_toNative context v p.type u
      rw [DynValue.coerce_rests hu hsupply, hu.duplicates hsupply] at hconverted
      rw [bindParam, Supply.taken, World.takes, Bool.and_assoc]
      split
      · rename_i hwidens
        rw [hwidens]
        rfl
      · rename_i hwidens
        rw [Bool.eq_false_iff.mpr hwidens, Bool.not_false, Bool.true_and]
        exact hconverted
  | missing =>
      obtain ⟨name, type, default⟩ := p
      cases default with
      | none => rfl
      | some d =>
          have hcoerced := Crossing.coerceNative_value d type u
          rw [NativeValue.coerce_rests hu hdefault] at hcoerced
          exact congrArg Option.isSome hcoerced

theorem ok_of_toOption {ε α : Type} {r : Except ε α} {a : α} (h : r.toOption = some a) :
    r = .ok a := by
  cases r with
  | error e => cases h
  | ok b => exact congrArg Except.ok (Option.some.inj h)

theorem yields_bindParam {n : NativeValue} (hsupply : w.Has s.handles)
    (hdefault : w.Has p.handles) (hu : w.Rests u)
    (h : (bindParam context fit p s u).1 = some n) :
    s.Yields w (bindParam context fit p s u).2 p n := by
  cases s with
  | clash => cases h
  | given v byKeyword =>
      rw [bindParam] at h ⊢
      split at h
      · cases h
      · rename_i hwidens
        rw [if_neg hwidens]
        have hok : (Crossing.toNative context v p.type u).1 = .ok n := ok_of_toOption h
        exact (Crossing.becomes_toNative context (hu.has hsupply) (Prod.ext hok rfl)).along hsupply
          hu (Crossing.toNative_rests context v p.type u) (.refl _)
  | missing =>
      obtain ⟨name, type, default⟩ := p
      cases default with
      | none => cases h
      | some d =>
          have hcoerced := Crossing.coerceNative_value d type u
          rw [NativeValue.coerce_rests hu hdefault] at hcoerced
          exact ⟨d, rfl, hcoerced.symm.trans h⟩

section Params

variable {ps : List Param} {positional : List DynValue} {done bound : List NativeValue}
  {used count : Nat}

theorem bindParams_rests (context : String) (fit : Fit) (keywords : List (String × DynValue))
    (done : List NativeValue) (used : Nat) (ps : List Param) (positional : List DynValue)
    (u : World) : u.Rests (bindParams context fit keywords done used ps positional u).2 :=
  World.Rests.respected.bindParams context fit keywords done used ps positional u

variable (hhas : ∀ q ∈ supplies keywords ps positional, w.Has (q.2.handles ++ q.1.handles))
  (hu : w.Rests u)

include hhas hu

theorem isSome_bindParams :
    (bindParams context fit keywords done used ps positional u).1.isSome
      = (supplies keywords ps positional).all fun q => q.2.taken w fit q.1 := by
  induction ps generalizing done used positional u with
  | nil => rfl
  | cons p ps ih =>
      have hhead := hhas _ List.mem_cons_self
      have hone := isSome_bindParam context fit
        (hhead.subset fun _ => List.mem_append_left _)
        (hhead.subset fun _ => List.mem_append_right _) hu
      rw [bindParams, supplies, List.all_cons, ← hone]
      cases hbound : (bindParam context fit p (supply p positional.head? keywords) u).1 with
      | none =>
          rw [Act.bind_then hbound]
          rfl
      | some n =>
          rw [Act.bind_then hbound]
          exact ih (fun q hq => hhas q (List.mem_cons_of_mem _ hq))
            (hu.trans (bindParam_rests context fit p _ u))

/-- The parameters are bound one after another, and the keywords that they use are counted. -/
theorem of_bindParams
    (h : (bindParams context fit keywords done used ps positional u).1 = some (bound, count)) :
    ∃ later, bound = done ++ later
      ∧ count = used + (supplies keywords ps positional).countP (·.2.byKeyword)
      ∧ List.Forall₂ (fun q n => q.2.Yields w
        (bindParams context fit keywords done used ps positional u).2 q.1 n)
        (supplies keywords ps positional) later := by
  induction ps generalizing done used positional u with
  | nil =>
      cases h
      exact ⟨[], (List.append_nil _).symm, rfl, .nil⟩
  | cons p ps ih =>
      have hhead := hhas _ List.mem_cons_self
      have hsupply := hhead.subset fun _ => List.mem_append_left _
      have hdefault := hhead.subset fun _ => List.mem_append_right _
      have hfirst := bindParam_rests context fit p (supply p positional.head? keywords) u
      rw [bindParams] at h ⊢
      cases hbound : (bindParam context fit p (supply p positional.head? keywords) u).1 with
      | none =>
          rw [Act.bind_then hbound] at h
          cases h
      | some n =>
          rw [Act.bind_then hbound] at h ⊢
          obtain ⟨later, rfl, hcount, hlater⟩ :=
            ih (fun q hq => hhas q (List.mem_cons_of_mem _ hq)) (hu.trans hfirst) h
          refine ⟨n :: later, by simp, ?_, .cons ?_ hlater⟩
          · rw [hcount, supplies, List.countP_cons, ← Nat.add_assoc, Nat.add_right_comm]
            congr 1
            cases supply p positional.head? keywords with
            | given v byKeyword => cases byKeyword <;> rfl
            | _ => rfl
          · exact (yields_bindParam hsupply hdefault hu hbound).along hsupply (hu.trans hfirst)
              (bindParams_rests context fit keywords _ _ ps _ _)

end Params

theorem getElem?_supplies (ps : List Param) (positional : List DynValue) (i : Nat) :
    (supplies keywords ps positional)[i]?
      = ps[i]?.map fun p => (p, supply p positional[i]? keywords) := by
  induction ps generalizing positional i with
  | nil => rfl
  | cons p ps ih =>
      rw [supplies]
      cases i with
      | zero => cases positional <;> rfl
      | succ i =>
          rw [List.getElem?_cons_succ, List.getElem?_cons_succ, ih]
          cases positional <;> rfl

theorem length_supplies (ps : List Param) (positional : List DynValue) :
    (supplies keywords ps positional).length = ps.length := by
  induction ps generalizing positional with
  | nil => rfl
  | cons p ps ih => rw [supplies, List.length_cons, ih, List.length_cons]

section Groups

variable {c : Constructor} {g : ArgGroup} {cs : List Constructor} {args : List NativeValue}

/-- What is supplied comes from the group. -/
theorem handles_supply (p : Param) (i : Nat) :
    ∀ x ∈ (supply p g.positional[i]? g.keywords).handles, x ∈ g.handles := by
  intro x hx
  unfold supply at hx
  split at hx
  · cases hx
  · rename_i v hv hnone
    exact List.mem_flatMap.mpr ⟨v, List.mem_append_left _ (List.mem_of_getElem? hv), hx⟩
  · rename_i v hnone hv
    obtain ⟨before, after, hkeywords, -⟩ := List.lookup_eq_some_iff.mp hv
    refine List.mem_flatMap.mpr ⟨v, List.mem_append_right _ ?_, hx⟩
    exact List.mem_map.mpr ⟨(p.name, v), by simp [hkeywords], rfl⟩
  · cases hx

/-- Whether a constructor takes a group of arguments. -/
def admits (c : Constructor) (w : World) (fit : Fit) (g : ArgGroup) : Bool :=
  decide (g.positional.length ≤ c.params.length)
    && (supplies g.keywords c.params g.positional).all (fun q => q.2.taken w fit q.1)
    && (supplies g.keywords c.params g.positional).countP (·.2.byKeyword) = g.keywords.length

/-- What binding comes to once the parameters are bound. -/
def concluded (g : ArgGroup) (u : World) :
    Option (List NativeValue × Nat) → Option (List NativeValue) × World
  | none => (none, u)
  | some (bound, used) =>
      if used = g.keywords.length then (some bound, u)
      else (none, u.drop (bound.flatMap NativeValue.handles))

theorem bind_eq (c : Constructor) (context : String) (fit : Fit) (g : ArgGroup) (u : World) :
    c.bind context fit g u = if c.params.length < g.positional.length then (none, u) else
      concluded g (bindParams context fit g.keywords [] 0 c.params g.positional u).2
        (bindParams context fit g.keywords [] 0 c.params g.positional u).1 := by
  unfold bind
  split
  · rfl
  · cases hbound : (bindParams context fit g.keywords [] 0 c.params g.positional u).1 with
    | none => exact Act.bind_then hbound
    | some r =>
        refine (Act.bind_then hbound).trans ?_
        dsimp only [concluded]
        split <;> rfl

theorem bind_rests (c : Constructor) (context : String) (fit : Fit) (g : ArgGroup) (u : World) :
    u.Rests (c.bind context fit g u).2 :=
  World.Rests.respected.bindGroup context c fit g u

variable (hhas : w.Has (g.handles ++ c.handles)) (hu : w.Rests u)

include hhas

theorem has_supplies : ∀ q ∈ supplies g.keywords c.params g.positional,
    w.Has (q.2.handles ++ q.1.handles) := by
  intro q hq
  obtain ⟨i, hi⟩ := List.mem_iff_getElem?.mp hq
  rw [getElem?_supplies, Option.map_eq_some_iff] at hi
  obtain ⟨p, hp, rfl⟩ := hi
  refine hhas.subset fun x hx => ?_
  rcases List.mem_append.mp hx with hx | hx
  · exact List.mem_append_left _ (handles_supply p i x hx)
  · exact List.mem_append_right _ (List.mem_flatMap.mpr ⟨p, List.mem_of_getElem? hp, hx⟩)

include hu

theorem isSome_bind : (c.bind context fit g u).1.isSome = c.admits w fit g := by
  have hall : (bindParams context fit g.keywords [] 0 c.params g.positional u).1.isSome
      = (supplies g.keywords c.params g.positional).all fun q => q.2.taken w fit q.1 :=
    isSome_bindParams (has_supplies hhas) hu
  rw [bind_eq, admits]
  split
  · rename_i hlong
    rw [decide_eq_false (Nat.not_le.mpr hlong)]
    rfl
  · rename_i hshort
    rw [decide_eq_true (Nat.not_lt.mp hshort), Bool.true_and, ← hall]
    cases hbound : (bindParams context fit g.keywords [] 0 c.params g.positional u).1 with
    | none => rfl
    | some r =>
        obtain ⟨later, -, hcount, -⟩ := of_bindParams (has_supplies hhas) hu hbound
        rw [Nat.zero_add] at hcount
        rw [← hcount, Option.isSome_some, Bool.true_and, concluded]
        split
        · rename_i hused
          exact (decide_eq_true hused).symm
        · rename_i hused
          exact (decide_eq_false hused).symm

/-- The values that are bound are those of the parameters, and every keyword is counted. -/
theorem of_bind (h : (c.bind context fit g u).1 = some args) :
    g.positional.length ≤ c.params.length
      ∧ (supplies g.keywords c.params g.positional).countP (·.2.byKeyword) = g.keywords.length
      ∧ List.Forall₂ (fun q n => q.2.Yields w (c.bind context fit g u).2 q.1 n)
        (supplies g.keywords c.params g.positional) args := by
  rw [bind_eq] at h ⊢
  split at h
  · cases h
  · rename_i hshort
    rw [if_neg hshort]
    cases hbound : (bindParams context fit g.keywords [] 0 c.params g.positional u).1 with
    | none =>
        rw [hbound] at h
        cases h
    | some r =>
        obtain ⟨later, hlater, hcount, hyields⟩ := of_bindParams (has_supplies hhas) hu hbound
        rw [Nat.zero_add] at hcount
        rw [hbound, concluded] at h
        split at h
        · rename_i hused
          cases h
          rw [concluded, if_pos hused, hlater]
          exact ⟨Nat.not_lt.mp hshort, hcount.symm.trans hused, hyields⟩
        · cases h

end Groups

section Overloads

variable {g : ArgGroup} {cs : List Constructor}
  (hhas : w.Has (g.handles ++ cs.flatMap Constructor.handles))

include hhas

theorem has_of_mem {c : Constructor} (hc : c ∈ cs) : w.Has (g.handles ++ c.handles) := by
  refine hhas.subset fun x hx => ?_
  rcases List.mem_append.mp hx with hx | hx
  · exact List.mem_append_left _ hx
  · exact List.mem_append_right _ (List.mem_flatMap.mpr ⟨c, hc, hx⟩)

/-- It makes no difference which constructors were tried with a group of arguments. -/
theorem steady (context : String) : (trial context g).Steady cs w where
  rests c fit u := bind_rests c context fit g u
  same _ hc _ _ hu :=
    (isSome_bind (has_of_mem hhas hc) hu).trans (isSome_bind (has_of_mem hhas hc) (.refl w)).symm

end Overloads

end Constructor

section Names

variable {keywords : List (String × DynValue)} {ps : List Param}

/-- What a list with distinct names has under a name is found. -/
theorem lookup_of_mem (hnodup : (keywords.map Prod.fst).Nodup) {name : String} {v : DynValue}
    (hmem : (name, v) ∈ keywords) : keywords.lookup name = some v := by
  obtain ⟨before, after, rfl⟩ := List.append_of_mem hmem
  refine List.lookup_eq_some_iff.mpr ⟨before, after, rfl, fun k hk => ?_⟩
  rw [List.map_append, List.map_cons, List.nodup_append] at hnodup
  exact bne_iff_ne.mpr (hnodup.2.2 _ (List.mem_map_of_mem hk) _ List.mem_cons_self).symm

namespace Constructor

theorem isSome_lookup_iff {name : String} :
    (keywords.lookup name).isSome = true ↔ name ∈ keywords.map Prod.fst := by
  rw [List.lookup_isSome_iff, List.mem_map]
  exact exists_congr fun k => and_congr_right fun _ => beq_iff_eq.trans eq_comm

/-- Keywords are counted once for each parameter that has their name and no positional argument. -/
theorem countP_supplies (ps : List Param) (positional : List DynValue) :
    (supplies keywords ps positional).countP (·.2.byKeyword)
      = (((ps.drop positional.length).map Param.name).filter
        fun name => (keywords.lookup name).isSome).length := by
  induction ps generalizing positional with
  | nil => rw [List.drop_nil]; rfl
  | cons p ps ih =>
      rw [supplies, List.countP_cons, ih]
      cases positional with
      | cons v rest =>
          have hpositional : (supply p (some v) keywords).byKeyword = false := by
            unfold supply
            cases keywords.lookup p.name <;> rfl
          simp [hpositional]
      | nil =>
          rw [List.tail_nil, List.length_nil, List.drop_zero, List.drop_zero, List.map_cons,
            List.filter_cons, List.head?_nil, supply.eq_def]
          cases keywords.lookup p.name <;> rfl

/-- If names are distinct and all keywords are counted, each is the name of one parameter. -/
theorem perm_of_counted (hnames : (ps.map Param.name).Nodup)
    (hcount : ((ps.map Param.name).filter fun name => (keywords.lookup name).isSome).length
      = keywords.length) :
    ((ps.map Param.name).filter fun name => (keywords.lookup name).isSome).Perm
      (keywords.map Prod.fst) := by
  refine (List.subperm_of_subset (hnames.filter _) fun name hname => ?_).perm_of_length_le ?_
  · exact isSome_lookup_iff.mp (List.mem_filter.mp hname).2
  · rw [List.length_map, hcount]

end Constructor

end Names

/-- How the parameters of a constructor get their values from a group of arguments. -/
structure Constructor.Binds (c : Constructor) (g : ArgGroup) (w u : World)
    (args : List NativeValue) : Prop where
  length : args.length = c.params.length
  /-- The positional arguments are those of the first parameters. -/
  positional : ∀ (i : Nat) (v : DynValue), g.positional[i]? = some v →
    ∃ (p : Param) (n : NativeValue), c.params[i]? = some p ∧ args[i]? = some n
      ∧ w.Becomes u v p.type n
  /-- No keyword is given for a parameter that has a positional argument. -/
  apart : ∀ (i : Nat) (p : Param), i < g.positional.length → c.params[i]? = some p →
    g.keywords.lookup p.name = none
  /-- Another parameter with a keyword gets what is given first under its name. -/
  named : ∀ (i : Nat) (p : Param) (v : DynValue), g.positional.length ≤ i → c.params[i]? = some p →
    g.keywords.lookup p.name = some v → ∃ n, args[i]? = some n ∧ w.Becomes u v p.type n
  /-- A parameter with neither gets its default. -/
  remaining : ∀ (i : Nat) (p : Param), g.positional.length ≤ i → c.params[i]? = some p →
    g.keywords.lookup p.name = none →
    ∃ d n, p.default = some d ∧ args[i]? = some n ∧ d.coerce w.census p.type = some n
  /-- As many parameters have a keyword as there are keywords. -/
  counted : (((c.params.drop g.positional.length).map Param.name).filter
    fun name => (g.keywords.lookup name).isSome).length = g.keywords.length

/-- Whether no keyword is lost: each is the value of just one parameter of its name, and none is
repeated. -/
structure Constructor.KeepsKeywords (c : Constructor) (g : ArgGroup) (w u : World)
    (args : List NativeValue) : Prop where
  kept : ∀ (j : Nat) (name : String) (v : DynValue), g.keywords[j]? = some (name, v) →
    ∃! i : Nat, g.positional.length ≤ i ∧ ∃ (p : Param) (n : NativeValue),
      c.params[i]? = some p ∧ p.name = name ∧ args[i]? = some n ∧ w.Becomes u v p.type n
  distinct : (g.keywords.map Prod.fst).Nodup

theorem exists_of_forall₂ {α β : Type} {R : α → β → Prop} {as : List α} {bs : List β}
    (h : List.Forall₂ R as bs) {i : Nat} {a : α} (ha : as[i]? = some a) :
    ∃ b, bs[i]? = some b ∧ R a b := by
  induction h generalizing i with
  | nil => cases ha
  | cons hab _ ih =>
      cases i with
      | zero =>
          cases ha
          exact ⟨_, rfl, hab⟩
      | succ i => exact ih ha

namespace Constructor

variable {context : String} {fit : Fit} {c : Constructor} {g : ArgGroup} {w u : World}
  {args : List NativeValue}

/-- A positional argument is taken if there is no keyword besides. -/
theorem yields_positional {p : Param} {v : DynValue} {n : NativeValue}
    (h : (supply p (some v) g.keywords).Yields w u p n) :
    g.keywords.lookup p.name = none ∧ w.Becomes u v p.type n := by
  unfold supply at h
  cases hlookup : g.keywords.lookup p.name with
  | none =>
      rw [hlookup] at h
      exact ⟨rfl, h⟩
  | some k =>
      rw [hlookup] at h
      cases h

/-- What a constructor got when it was tried are values of what is supplied. -/
theorem of_gives (hhas : w.Has (g.handles ++ c.handles))
    (h : (trial context g).Gives w u fit c args) : g.positional.length ≤ c.params.length
      ∧ (supplies g.keywords c.params g.positional).countP (·.2.byKeyword) = g.keywords.length
      ∧ List.Forall₂ (fun q n => q.2.Yields w u q.1 n)
        (supplies g.keywords c.params g.positional) args := by
  obtain ⟨v, hv, hbound, hafter⟩ := h
  obtain ⟨hshort, hcount, hyields⟩ := of_bind hhas hv hbound
  have hknown := has_supplies hhas
  refine ⟨hshort, hcount, ((List.forall₂_and_left _ _).mpr ⟨hknown, hyields⟩).imp ?_⟩
  rintro q n ⟨hhas, hyield⟩
  exact hyield.along (hhas.subset fun _ => List.mem_append_left _)
    (hv.trans (bind_rests c context fit g v)) hafter

section Values

variable {i : Nat} {p : Param} {v : DynValue}
  (hyields : List.Forall₂ (fun q n => q.2.Yields w u q.1 n)
    (supplies g.keywords c.params g.positional) args)
  (hp : c.params[i]? = some p)

include hyields hp

theorem exists_value : ∃ n, args[i]? = some n
    ∧ (supply p g.positional[i]? g.keywords).Yields w u p n := by
  refine exists_of_forall₂ hyields (a := (p, supply p g.positional[i]? g.keywords)) ?_
  rw [getElem?_supplies, hp, Option.map_some]

theorem exists_value_of_positional (hv : g.positional[i]? = some v) :
    ∃ n, args[i]? = some n ∧ g.keywords.lookup p.name = none ∧ w.Becomes u v p.type n := by
  obtain ⟨n, hn, hyield⟩ := exists_value hyields hp
  rw [hv] at hyield
  exact ⟨n, hn, yields_positional hyield⟩

theorem exists_value_of_rest (hi : g.positional.length ≤ i) :
    ∃ n, args[i]? = some n ∧ (supply p none g.keywords).Yields w u p n := by
  obtain ⟨n, hn, hyield⟩ := exists_value hyields hp
  rw [List.getElem?_eq_none hi] at hyield
  exact ⟨n, hn, hyield⟩

end Values

/-- What a constructor got when it was tried are the values of its parameters. -/
theorem binds (hhas : w.Has (g.handles ++ c.handles))
    (h : (trial context g).Gives w u fit c args) : c.Binds g w u args := by
  obtain ⟨hshort, hcount, hyields⟩ := of_gives hhas h
  constructor
  case length => rw [← hyields.length_eq, length_supplies]
  case positional =>
    intro i v hv
    obtain ⟨hi, -⟩ := List.getElem?_eq_some_iff.mp hv
    have hp := List.getElem?_eq_getElem (hi.trans_le hshort)
    obtain ⟨n, hn, -, hbecomes⟩ := exists_value_of_positional hyields hp hv
    exact ⟨_, n, hp, hn, hbecomes⟩
  case apart =>
    intro i p hi hp
    obtain ⟨n, -, hnone, -⟩ :=
      exists_value_of_positional hyields hp (List.getElem?_eq_getElem hi)
    exact hnone
  case named =>
    intro i p v hi hp hlookup
    obtain ⟨n, hn, hyield⟩ := exists_value_of_rest hyields hp hi
    unfold supply at hyield
    rw [hlookup] at hyield
    exact ⟨n, hn, hyield⟩
  case remaining =>
    intro i p hi hp hlookup
    obtain ⟨n, hn, hyield⟩ := exists_value_of_rest hyields hp hi
    unfold supply at hyield
    rw [hlookup] at hyield
    obtain ⟨d, hd, hcoerced⟩ := hyield
    exact ⟨d, n, hd, hn, hcoerced⟩
  case counted => rw [← countP_supplies, hcount]

/-- With distinct names no keyword is lost. -/
theorem Binds.keepsKeywords (h : c.Binds g w u args) (hnames : (c.params.map Param.name).Nodup) :
    c.KeepsKeywords g w u args := by
  have hperm := perm_of_counted
    (hnames.sublist ((List.drop_sublist g.positional.length c.params).map Param.name)) h.counted
  have hdistinct : (g.keywords.map Prod.fst).Nodup :=
    hperm.nodup_iff.mp ((hnames.sublist ((List.drop_sublist _ _).map Param.name)).filter _)
  refine ⟨fun j name v hj => ?_, hdistinct⟩
  have hmem := List.mem_of_getElem? hj
  have hlookup := lookup_of_mem hdistinct hmem
  have hname : name ∈ (c.params.drop g.positional.length).map Param.name :=
    (List.mem_filter.mp (hperm.mem_iff.mpr (List.mem_map_of_mem hmem))).1
  obtain ⟨p, hp, rfl⟩ := List.mem_map.mp hname
  obtain ⟨i, hi⟩ := List.mem_iff_getElem?.mp hp
  rw [List.getElem?_drop] at hi
  obtain ⟨n, hn, hbecomes⟩ := h.named _ p v (Nat.le_add_right _ i) hi hlookup
  refine ⟨_, ⟨Nat.le_add_right _ i, p, n, hi, rfl, hn, hbecomes⟩, ?_⟩
  rintro k ⟨-, q, -, hq, hsame, -⟩
  have hlt : k < (c.params.map Param.name).length := by
    rw [List.length_map]
    exact (List.getElem?_eq_some_iff.mp hq).1
  refine (List.getElem?_inj hlt hnames).mp ?_
  rw [List.getElem?_map, List.getElem?_map, hq, hi, Option.map_some, Option.map_some, hsame]

end Constructor

/-- Binding gives every parameter its value, and loses no keyword unless two parameters have one
name. -/
theorem constructors_bind_groups (c : Constructor) (context : String) (fit : Fit) (g : ArgGroup)
    (w u : World) (args : List NativeValue) (hhas : w.Has (g.handles ++ c.handles))
    (h : c.bind context fit g w = (some args, u)) :
    c.Binds g w u args
    ∧ ((c.params.map Param.name).Nodup → c.KeepsKeywords g w u args) := by
  have hgives : (Constructor.trial context g).Gives w u fit c args := by
    refine ⟨w, .refl w, congrArg Prod.fst h, ?_⟩
    rw [Constructor.trial, h]
    exact .refl u
  have hbinds := Constructor.binds hhas hgives
  exact ⟨hbinds, hbinds.keepsKeywords⟩

/-! A point has two coordinates, of which the second is 2 unless it is given. -/

namespace Point

def constructor (first second : String) : Constructor :=
  ⟨[⟨first, .int, none⟩, ⟨second, .int, some (.int 2)⟩], .everyone, .lit .void⟩

end Point

open Point in
theorem constructors_bind_groups_point :
    (constructor "x" "y").Binds ⟨[.int 1], [("y", .int 3)]⟩ .initial .initial [.int 1, .int 3]
    ∧ (constructor "x" "y").KeepsKeywords ⟨[.int 1], [("y", .int 3)]⟩ .initial .initial
      [.int 1, .int 3] := by
  have hbind : (constructor "x" "y").bind "a point" .exact ⟨[.int 1], [("y", .int 3)]⟩ .initial
      = (some [.int 1, .int 3], .initial) := by
    with_unfolding_all rfl
  have hplain : World.initial.Has (ArgGroup.handles ⟨[.int 1], [("y", .int 3)]⟩
      ++ (constructor "x" "y").handles) := by
    intro x hx
    have hnone : x ∈ ([] : List Handle) := hx
    cases hnone
  obtain ⟨hbinds, hkeeps⟩ := constructors_bind_groups _ _ _ _ _ _ _ hplain hbind
  exact ⟨hbinds, hkeeps (by decide)⟩

open Point in
/-- If both coordinates have one name, the keyword of that name is counted twice, and another one
is lost that is the name of none. -/
theorem keyword_lost :
    (constructor "x" "x").bind "a point" .exact ⟨[], [("x", .int 1), ("y", .int 3)]⟩ .initial
      = (some [.int 1, .int 1], .initial)
    ∧ ¬(constructor "x" "x").KeepsKeywords ⟨[], [("x", .int 1), ("y", .int 3)]⟩ .initial .initial
      [.int 1, .int 1] := by
  refine ⟨by with_unfolding_all rfl, fun h => ?_⟩
  obtain ⟨i, ⟨-, p, n, hp, hname, -⟩, -⟩ := h.kept 1 "y" (.int 3) rfl
  obtain rfl | rfl : p = ⟨"x", .int, none⟩ ∨ p = ⟨"x", .int, some (.int 2)⟩ := by
    simpa [constructor] using List.mem_of_getElem? hp
  · exact absurd hname (by decide)
  · exact absurd hname (by decide)

end TwinObject
