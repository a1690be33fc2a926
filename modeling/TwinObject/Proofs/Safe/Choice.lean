/-
Choices are safe: of the candidates that are tried for a call or a construction,
only the arguments for the chosen one are kept.
-/
import TwinObject.Proofs.Safe.Container

namespace TwinObject

open Hold

section Resolve

/-- What the candidates of a pass hold: the slot that ended it, or the first
const one. -/
def Candidates.hold (c : Candidates) : Hold :=
  (c.found.or c.pending).elim 0 fun s => NativeValue.holdAll s.args

def Selection.hold (s : Selection) : Hold :=
  NativeValue.holdAll s.args

variable {F : Hold} {w : World} {conv : Conversion Act}

theorem Candidates.scan_safe (hconv : conv.Safe F) (constOnly : Bool) (fit : Fit)
    (slots : List (Nat × Slot)) {c : Candidates} (hfound : c.found = none) :
    Act.Safe F c.hold Candidates.hold w (scan conv constOnly fit slots c) := by
  induction slots generalizing w c with
  | nil => exact .pure rfl
  | cons entry rest ih =>
      obtain ⟨index, slot⟩ := entry
      have hconvert := Act.Safe.frame (G := c.hold) ((hconv.convert w slot.key.params fit).mono _)
      refine (hconvert.cast (add_zero _).symm fun _ => rfl).bind fun _ => ?_
      cases (conv.convert slot.key.params fit w).1 with
      | none => exact (ih hfound).cast (add_zero _) fun _ => rfl
      | some args =>
          have hpending : c.hold = c.pending.elim 0 fun s => NativeValue.holdAll s.args := by
            rw [hold, hfound, Option.none_or]
          dsimp only [Option.elim_some]
          split
          · cases hc : c.pending with
            | none =>
                refine (ih (c := { c with pending := some ⟨index, args⟩ }) hfound).cast
                  ?_ fun _ => rfl
                rw [hpending, hc, hold, hfound, Option.none_or]
                exact zero_add _
            | some other =>
                have hdiscard := Act.Safe.frame (G := c.hold) ((hconv.discard
                  (conv.convert slot.key.params fit w).2 args).mono _)
                exact (hdiscard.cast rfl fun _ => (add_zero _).symm).bind fun _ => ih hfound
          · split
            · have hdiscard := Act.Safe.frame (G := c.hold) ((hconv.discard
                (conv.convert slot.key.params fit w).2 args).mono _)
              refine (hdiscard.cast rfl fun _ => (add_zero _).symm).bind fun _ => ?_
              exact ih (c := { c with blocked := true }) hfound
            · cases hc : c.pending with
              | none =>
                  rw [hpending, hc]
                  exact Act.Safe.bind (g := fun _ => 0 + NativeValue.holdAll args) (.pure rfl)
                    fun _ => .pure (zero_add _)
              | some other =>
                  have hdiscard := Act.Safe.frame (G := NativeValue.holdAll args) ((hconv.discard
                    (conv.convert slot.key.params fit w).2 other.args).mono _)
                  refine (hdiscard.cast ?_ fun _ => (add_zero _).symm).bind fun _ => .pure ?_
                  · rw [hpending, hc]
                    exact add_comm _ _
                  · rfl

theorem VTable.resolvePasses_safe (hconv : conv.Safe F) (table : VTable) (className name : String)
    (constOnly : Bool) (fits : List Fit) (blocked : Bool) :
    Act.Safe F 0 (ofOk Selection.hold) w
      (table.resolvePasses conv className name constOnly fits blocked) := by
  induction fits generalizing w blocked with
  | nil => exact .pure rfl
  | cons fit fits ih =>
      have hscan := Candidates.scan_safe (w := w) hconv constOnly fit (table.slotsNamed name)
        (c := { blocked }) rfl
      refine (hscan.cast rfl fun _ => rfl).bind fun _ => ?_
      generalize (Candidates.scan conv constOnly fit (table.slotsNamed name) { blocked } w).1 = c
      obtain ⟨pending, again, found⟩ := c
      cases found with
      | some found => exact .pure rfl
      | none =>
          cases pending with
          | some pending => exact .pure rfl
          | none => exact ih again

theorem VTable.resolve_safe (hconv : conv.Safe F) (table : VTable) (className name : String)
    (constOnly : Bool) :
    Act.Safe F 0 (ofOk Selection.hold) w (table.resolve conv className name constOnly) :=
  table.resolvePasses_safe hconv className name constOnly Fit.order false

end Resolve

namespace Call

variable {F : Hold} {w : World}
  {convert : List NativeType → Fit → Act (Option (List NativeValue))}

theorem attempt_safe (hconvert : ∀ (w : World) (params : List NativeType) (fit : Fit),
      Act.Safe F 0 (fun r => r.elim 0 NativeValue.holdAll) w (convert params fit)) (fit : Fit)
    (overloads : List MethodDecl) :
    Act.Safe F 0 (fun r => r.elim 0 fun found => NativeValue.holdAll found.2) w
      (pickOverload.attempt convert fit overloads) := by
  induction overloads generalizing w with
  | nil => exact .pure rfl
  | cons d ds ih =>
      refine (hconvert w d.params fit).bind fun _ => ?_
      cases (convert d.params fit w).1 with
      | none => exact ih
      | some args => exact .pure rfl

theorem pickOverload_safe (hconvert : ∀ (w : World) (params : List NativeType) (fit : Fit),
      Act.Safe F 0 (fun r => r.elim 0 NativeValue.holdAll) w (convert params fit))
    (overloads : List MethodDecl) (fits : List Fit) :
    Act.Safe F 0 (fun r => r.elim 0 fun found => NativeValue.holdAll found.2) w
      (pickOverload convert overloads fits) := by
  induction fits generalizing w with
  | nil => exact .pure rfl
  | cons fit fits ih =>
      refine (attempt_safe hconvert fit overloads).bind fun _ => ?_
      cases (pickOverload.attempt convert fit overloads w).1 with
      | none => exact ih
      | some found => exact .pure rfl

end Call

namespace ArgGroup

theorem mem_handles_of_positional {g : ArgGroup} {v : DynValue} (hv : v ∈ g.positional) {h : Handle}
    (hh : h ∈ v.handles) : h ∈ g.handles :=
  List.mem_flatMap.mpr ⟨v, List.mem_append_left _ hv, hh⟩

theorem mem_handles_of_keyword {g : ArgGroup} {name : String} {v : DynValue}
    (hv : g.keywords.lookup name = some v) {h : Handle} (hh : h ∈ v.handles) : h ∈ g.handles := by
  obtain ⟨n, hmem⟩ : ∃ n, (n, v) ∈ g.keywords := by
    rw [List.lookup_eq_some_iff] at hv
    obtain ⟨before, after, hsplit, -⟩ := hv
    exact ⟨name, by rw [hsplit]; simp⟩
  exact List.mem_flatMap.mpr ⟨v, List.mem_append_right _ (List.mem_map.mpr ⟨(n, v), hmem, rfl⟩), hh⟩

end ArgGroup

namespace Constructor

variable {F : Hold} {w : World}

/-- What arguments that were bound in part hold. -/
def boundHold (r : Option (List NativeValue × Nat)) : Hold :=
  r.elim 0 fun bound => NativeValue.holdAll bound.1

theorem bindParam_safe (context : String) (fit : Fit) {p : Param} {s : Supply}
    (hgiven : ∀ v byKeyword, s = .given v byKeyword → LendsAll F v.handles)
    (hdefault : Vouches F w p.handles) :
    Act.Safe F 0 (fun r => r.elim 0 NativeValue.hold) w (bindParam context fit p s) := by
  unfold bindParam
  cases s with
  | clash => exact .pure rfl
  | given v byKeyword =>
      dsimp only
      split
      · exact .pure rfl
      · refine (Crossing.toNative_safe context p.type (hgiven v byKeyword rfl)).bind fun _ =>
          .pure ?_
        cases (Crossing.toNative context v p.type w).1 <;> rfl
  | missing =>
      cases hp : p.default with
      | none => exact .pure rfl
      | some d =>
          have hd : Vouches F w d.handles := by
            rw [Param.handles, hp] at hdefault
            exact hdefault
          exact Crossing.coerceNative_safe p.type hd

theorem bindParams_safe (context : String) (fit : Fit) {keywords : List (String × DynValue)}
    (hkeywords : ∀ name v, keywords.lookup name = some v → LendsAll F v.handles)
    (done : List NativeValue) (used : Nat) (ps : List Param) {positional : List DynValue}
    (hpositional : ∀ v ∈ positional, LendsAll F v.handles)
    (hdefaults : Vouches F w (ps.flatMap Param.handles)) :
    Act.Safe F (NativeValue.holdAll done) boundHold w
      (bindParams context fit keywords done used ps positional) := by
  induction ps generalizing w done used positional with
  | nil => exact .pure rfl
  | cons p ps ih =>
      have hgiven : ∀ v byKeyword, supply p positional.head? keywords = .given v byKeyword →
          LendsAll F v.handles := by
        intro v byKeyword hsupply
        unfold supply at hsupply
        split at hsupply
        · cases hsupply
        · rename_i hhead hlookup
          cases hsupply
          exact hpositional v (List.mem_of_head? hhead)
        · rename_i hhead hlookup
          cases hsupply
          exact hkeywords p.name v hlookup
        · cases hsupply
      have hp : Vouches F w p.handles := hdefaults.subset fun h hh => by simp [hh]
      have hps : Vouches F w (ps.flatMap Param.handles) := hdefaults.subset fun h hh => by
        rw [List.flatMap_cons]
        exact List.mem_append_right _ hh
      have hfirst := Act.Safe.frame (G := NativeValue.holdAll done)
        ((bindParam_safe context fit hgiven hp).mono _)
      refine (hfirst.cast (add_zero _).symm fun _ => rfl).bind fun hpersists => ?_
      cases (bindParam context fit p (supply p positional.head? keywords) w).1 with
      | none =>
          have hdiscard : Act.Safe F (NativeValue.holdAll done + 0) (fun _ => 0)
              (bindParam context fit p (supply p positional.head? keywords) w).2
              (Crossing.discardValues done) :=
            Crossing.discardValues_safe.cast (add_zero _) fun _ => rfl
          exact hdiscard.bind fun _ => .pure rfl
      | some v =>
          refine (ih (done ++ [v]) _ (fun u hu => hpositional u (List.mem_of_mem_tail hu))
            (hps.mono hpersists)).cast ?_ fun _ => rfl
          rw [NativeValue.holdAll_append, NativeValue.holdAll_singleton]
          rfl

theorem bind_safe (c : Constructor) (context : String) (fit : Fit) {g : ArgGroup}
    (hlent : LendsAll F g.handles) (hdefaults : Vouches F w c.handles) :
    Act.Safe F 0 (fun r => r.elim 0 NativeValue.holdAll) w (c.bind context fit g) := by
  unfold Constructor.bind
  have hkeywords : ∀ name v, g.keywords.lookup name = some v → LendsAll F v.handles :=
    fun _ _ hv => hlent.subset fun h hh => ArgGroup.mem_handles_of_keyword hv hh
  have hpositional : ∀ v ∈ g.positional, LendsAll F v.handles :=
    fun _ hv => hlent.subset fun h hh => ArgGroup.mem_handles_of_positional hv hh
  have hbind := bindParams_safe (w := w) context fit hkeywords [] 0 c.params hpositional hdefaults
  split
  · exact .pure rfl
  · refine hbind.bind fun _ => ?_
    rcases (bindParams context fit g.keywords [] 0 c.params g.positional w).1 with _ | ⟨bound, used⟩
    · exact .pure rfl
    · dsimp only
      split
      · exact .pure rfl
      · exact Act.Safe.bind (g := fun _ => 0) Crossing.discardValues_safe fun _ => .pure rfl

end Constructor

namespace Choice

variable {F : Hold} {w : World}

/-- The arguments that were bound for a constructor. -/
def hold : Choice → Hold
  | chosen _ args => NativeValue.holdAll args
  | _ => 0

theorem among_safe (context : String) (fit : Fit) {g : ArgGroup} (fromDerived : Bool)
    (cs : List Constructor) (hidden : Bool) (hlent : LendsAll F g.handles)
    (hdefaults : Vouches F w (cs.flatMap Constructor.handles)) :
    Act.Safe F 0 (Sum.elim hold fun _ => 0) w (among context fit g fromDerived cs hidden) := by
  induction cs generalizing w hidden with
  | nil => exact .pure rfl
  | cons c cs ih =>
      have hc : Vouches F w c.handles := hdefaults.subset fun h hh => by simp [hh]
      have hcs : Vouches F w (cs.flatMap Constructor.handles) := hdefaults.subset fun h hh => by
        rw [List.flatMap_cons]
        exact List.mem_append_right _ hh
      refine (c.bind_safe context fit hlent hc).bind fun hpersists => ?_
      cases (c.bind context fit g w).1 with
      | none => exact ih hidden (hcs.mono hpersists)
      | some args =>
          dsimp only
          split
          · exact .pure rfl
          · exact Act.Safe.bind (g := fun _ => 0) Crossing.discardValues_safe
              fun hdiscarded => ih true ((hcs.mono hpersists).mono hdiscarded)

theorem search_safe (context : String) {g : ArgGroup} (fromDerived : Bool) (cs : List Constructor)
    (fits : List Fit) (hidden : Bool) (hlent : LendsAll F g.handles)
    (hdefaults : Vouches F w (cs.flatMap Constructor.handles)) :
    Act.Safe F 0 hold w (search context g fromDerived cs fits hidden) := by
  induction fits generalizing w hidden with
  | nil =>
      cases hidden <;> exact .pure rfl
  | cons fit fits ih =>
      refine (among_safe context fit fromDerived cs hidden hlent hdefaults).bind fun hpersists => ?_
      cases (among context fit g fromDerived cs hidden w).1 with
      | inl choice => exact .pure rfl
      | inr hidden => exact ih hidden (hdefaults.mono hpersists)

end Choice

end TwinObject
