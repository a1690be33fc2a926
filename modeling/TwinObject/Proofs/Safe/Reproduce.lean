/-
New twins are safe: what is stored in one is taken over by it, and its class has
no pure slots and keeps its defaults.
-/
import TwinObject.Proofs.Safe.Act

namespace TwinObject

open Hold

namespace World

variable {w : World}

/-- Taking handles changes nothing but counts. -/
theorem retainAll_frame (hs : List Handle) (w : World) :
    ∃ twins, w.retainAll hs = { w with twins := twins } ∧ twins.size = w.twins.size := by
  induction hs generalizing w with
  | nil => exact ⟨w.twins, rfl, rfl⟩
  | cons h hs ih =>
      obtain ⟨twins, hframe, hsize⟩ := ih (w.retain h)
      exact ⟨twins, hframe, hsize.trans (w.size_modifyTwin h.twin (Twin.retain h))⟩

theorem getElem?_retainAll (hs : List Handle) {t : TwinId} {a : Twin} (ha : w.twins[t]? = some a) :
    ∃ native dynamic, (w.retainAll hs).twins[t]?
      = some { a with nativeCount := native, dynamicCount := dynamic } := by
  induction hs generalizing w a with
  | nil => exact ⟨a.nativeCount, a.dynamicCount, ha⟩
  | cons h hs ih =>
      have hfirst : ∃ native dynamic, (w.retain h).twins[t]?
          = some { a with nativeCount := native, dynamicCount := dynamic } := by
        have hretain : (w.retain h).twins[t]? = some (if h.twin = t then a.retain h else a) := by
          simp only [World.retain, modifyTwin, Array.getElem?_modify, ha]
          split <;> rfl
        rw [hretain]
        by_cases ht : h.twin = t
        · rw [if_pos ht]
          cases h <;> exact ⟨_, _, rfl⟩
        · rw [if_neg ht]
          exact ⟨a.nativeCount, a.dynamicCount, rfl⟩
      obtain ⟨native, dynamic, hfirst⟩ := hfirst
      obtain ⟨native', dynamic', hrest⟩ := ih hfirst
      exact ⟨native', dynamic', hrest⟩

theorem KeepsKind.of_eq {w' : World} {k : Kind} (hkeeps : w.KeepsKind k)
    (hdeclared : w'.declared = w.declared) (hclasses : w'.classes = w.classes) :
    w'.KeepsKind k := by
  cases k with
  | native c => exact fun s hs => hdeclared ▸ hkeeps s hs
  | dynamic c =>
      obtain ⟨s, hs, hcls⟩ := hkeeps
      exact ⟨s, hclasses ▸ hs, hcls⟩

theorem KeepsKind.retainAll {k : Kind} (hkeeps : w.KeepsKind k) (hs : List Handle) :
    (w.retainAll hs).KeepsKind k := by
  obtain ⟨twins, hframe, -⟩ := w.retainAll_frame hs
  exact hkeeps.of_eq (by rw [hframe]) (by rw [hframe])

/-- The handles inside a twin are held. -/
theorem held_of_contents {R : Hold} {t : TwinId} {a : Twin} (ha : w.twins[t]? = some a) {h : Handle}
    (hh : h ∈ a.contents) : w.Held R h.twin := by
  refine ⟨h, ?_, rfl⟩
  simp only [rootBag, Multiset.mem_add]
  exact Or.inl (Or.inl (Or.inl (Or.inl (Or.inl (Or.inl (Or.inr (mem_bag ha hh)))))))

end World

namespace Invariant

variable {w : World} {R : Hold}

/-- The native classes of a class in use have their defaults. -/
theorem keeps_segments (hinv : Invariant w R) {k : Kind} (hkeeps : w.KeepsKind k) {s : NativeClass}
    (hs : s ∈ k.layout.segments) : w.declared[s.id.serial]? = some ⟨s, s.ownHandles⟩ := by
  obtain ⟨b, hb, hsb⟩ := List.mem_flatMap.mp hs
  cases k with
  | native c =>
      cases List.mem_singleton.mp hb
      exact hkeeps s hsb
  | dynamic c =>
      obtain ⟨state, hstate, rfl⟩ := hkeeps
      exact (hinv.classed.bases _ state hstate b hb).1 s hsb

/-- The handles that a class in use keeps are held. -/
theorem held_of_own (hinv : Invariant w R) {k : Kind} (hkeeps : w.KeepsKind k) {s : NativeClass}
    (hs : s ∈ k.layout.segments) {h : Handle} (hh : h ∈ s.ownHandles) : w.Held R h.twin := by
  have hbag : h ∈ bag NativeState.kept w.declared := mem_bag (hinv.keeps_segments hkeeps hs) hh
  refine ⟨h, ?_, rfl⟩
  simp only [World.rootBag, Multiset.mem_add]
  exact Or.inl (Or.inl (Or.inl (Or.inl (Or.inl (Or.inl (Or.inl hbag))))))

theorem held_of_default (hinv : Invariant w R) {k : Kind} (hkeeps : w.KeepsKind k) {s : NativeClass}
    (hs : s ∈ k.layout.segments) {h : Handle}
    (hh : h ∈ s.defaultSegment.flatMap NativeValue.handles) : w.Held R h.twin := by
  simp only [NativeClass.defaultSegment, List.flatMap_map] at hh
  exact hinv.held_of_own hkeeps hs (List.mem_append_left _ hh)

theorem held_of_defaultStorage (hinv : Invariant w R) {k : Kind} (hkeeps : w.KeepsKind k)
    {h : Handle} (hh : h ∈ k.layout.defaultStorage.flatten.flatMap NativeValue.handles) :
    w.Held R h.twin := by
  obtain ⟨v, hv, hhv⟩ := List.mem_flatMap.mp hh
  obtain ⟨segment, hsegment, hvs⟩ := List.mem_flatten.mp hv
  obtain ⟨s, hs, rfl⟩ := List.mem_map.mp hsegment
  exact hinv.held_of_default hkeeps hs (List.mem_flatMap.mpr ⟨v, hvs, hhv⟩)

/-- The default of a member of a class in use is of the member's type. -/
theorem fits_default (hinv : Invariant w R) {k : Kind} (hkeeps : w.KeepsKind k) {s : NativeClass}
    (hs : s ∈ k.layout.segments) {d : MemberDecl} (hd : d ∈ s.members) : w.Fits d.type d.default :=
  hinv.typed.defaults _ _ (hinv.keeps_segments hkeeps hs) d hd

theorem conforms_default (hinv : Invariant w R) {a : Twin} (hkeeps : w.KeepsKind a.kind)
    (hdefault : a.storage = a.layout.defaultStorage) : w.Conforms a := by
  intro p v d hv hd
  obtain ⟨c, hc, hmember⟩ := Option.bind_eq_some_iff.mp hd
  have hvalue : a.valueAt? p = some d.default := by
    simp [Twin.valueAt?, hdefault, Layout.defaultStorage, hc, NativeClass.defaultSegment, hmember]
  obtain rfl : d.default = v := Option.some.inj (hvalue.symm.trans hv)
  exact hinv.fits_default hkeeps (List.mem_of_getElem? hc) (List.mem_of_getElem? hmember)

theorem keepsKind_of_live (hinv : Invariant w R) {t : TwinId} {a : Twin}
    (ha : w.twins[t]? = some a) (hlive : a.stage = .live) : w.KeepsKind a.kind :=
  hinv.classed.twins t a ha (by rw [hlive]; exact fun h => by cases h)

theorem keepsKind_of_lent (hinv : Invariant w R) {k : Kind} (hk : Token.kind k ∈ R) :
    w.KeepsKind k := by
  have hkinds : k ∈ R.kinds := (Multiset.mem_filterMap _ _).mpr ⟨_, hk, rfl⟩
  rw [hinv.classed.lent] at hkinds
  exact hinv.classed.lentKept k (Multiset.mem_coe.mp hkinds)

/-- A dynamic class that is lent is one of an interpreter that exists. -/
theorem interp_of_lent (hinv : Invariant w R) {c : DynamicClass}
    (hc : Token.kind (.dynamic c) ∈ R) : c.interp < w.interps.size := by
  obtain ⟨s, hs, rfl⟩ := hinv.keepsKind_of_lent hc
  exact hinv.homed.classes _ s hs

end Invariant

theorem Twin.shaped_fresh (interp : InterpId) (kind : Kind) (owner : Ownership) :
    (fresh interp kind owner).Shaped where
  storage := by
    simp [fresh, Twin.layout, Layout.defaultStorage, NativeClass.defaultSegment, Function.comp_def]
  constructed := by simp [fresh, Twin.layout]

theorem Layout.map_length_defaultStorage (l : Layout) :
    l.defaultStorage.map List.length = l.segments.map (·.members.length) := by
  simp [defaultStorage, NativeClass.defaultSegment, Function.comp_def]

/-- A new twin takes handles of its own for what is stored in it. -/
theorem Path.create {w : World} {R : Hold} {a : Twin} (hnative : a.nativeCount = 0)
    (hdynamic : a.dynamicCount = 1) (hstage : a.stage = .live) (hfilling : a.filling = false)
    (hshaped : a.Shaped) (hkeeps : w.KeepsKind a.kind) (hconcrete : a.kind.Concrete)
    (hconforms : w.Conforms a) (hhouses : w.Houses a.interp a.kind) (htidy : a.Tidy)
    (hheld : ∀ h ∈ a.contents, w.Held R h.twin) :
    Path w R ((w.retainAll a.contents).admitTwin a).1 (R + Hold.dynamic w.twins.size) := by
  obtain ⟨twins, hframe, hsize⟩ := w.retainAll_frame a.contents
  have hretained := Path.retainAll a.contents hheld
  have hcreated := (Transition.create (R := R) hnative hdynamic hstage hfilling hshaped
    (hkeeps.retainAll a.contents) hconcrete (hconforms.mono hretained.persists)
    (hhouses.mono hretained.persists) htidy).path
  refine hretained.trans (hcreated.cast rfl ?_)
  have hlast : (w.retainAll a.contents).twins.size = w.twins.size := by rw [hframe, hsize]
  rw [hlast, Hold.dynamic, ofHandles_singleton]

namespace World

variable {F : Hold} {w : World} {t : TwinId}

theorem create_safe {interp : InterpId} {kind : Kind} {owner : Ownership}
    (hlent : Token.kind kind ∈ F) (hconcrete : kind.Concrete) (hhouses : w.Houses interp kind) :
    Act.Safe F 0 Hold.dynamic w fun w => (w.create interp kind owner).swap := by
  obtain ⟨twins, hframe, hsize⟩ := w.retainAll_frame (Twin.fresh interp kind owner).contents
  refine Act.Safe.of_path (r := w.twins.size) (u := (w.create interp kind owner).1) ?_
    fun R hreach => ?_
  · simp only [create, admitTwin, Prod.swap_prod_mk, hframe, hsize]
  · have hkeeps := hreach.invariant.keepsKind_of_lent
      (Multiset.mem_add.mpr (Or.inl (Multiset.mem_add.mpr (Or.inr hlent))))
    have hconforms : w.Conforms (Twin.fresh interp kind owner) :=
      hreach.invariant.conforms_default hkeeps rfl
    refine (Path.create rfl rfl rfl rfl (Twin.shaped_fresh ..) hkeeps hconcrete hconforms hhouses
      (Twin.tidy_of_empty rfl) fun h hh => ?_).cast rfl (by rw [add_zero])
    refine hreach.invariant.held_of_defaultStorage hkeeps ?_
    simpa [Twin.contents, Twin.fresh] using hh

theorem setOwner_safe (hlent : Lends F t) (flag : Ownership) :
    Act.Safe F 0 (fun _ => 0) w fun w => ((), setOwner t flag w) := by
  intro R hreach
  obtain ⟨a, ha, hlive⟩ := hreach.live_of_lent hlent
  have hstore := (Transition.store (R := R + F) ha hlive a.storage a.attrs flag a.moved rfl [] []
    (List.Perm.refl _) (hreach.invariant.typed.stored t a ha) (hreach.invariant.tidied t a ha)).path
  rw [← modifyTwin_eq ha fun twin => { twin with owner := flag }] at hstore
  exact hstore

theorem copyTwin_safe (hlent : Lends F t) :
    Act.Safe F 0 (ofOk Hold.dynamic) w (copyTwin t) := by
  intro R hreach
  obtain ⟨a, ha, hlive⟩ := hreach.live_of_lent hlent
  unfold copyTwin
  rw [twin_eq ha]
  dsimp only
  cases a.obstacle? .copy with
  | some f => exact .refl
  | none =>
      have hinv := hreach.invariant
      have hkeeps := hinv.keepsKind_of_live ha hlive
      have hshaped := hinv.formed.shaped t a ha hlive
      obtain ⟨twins, hframe, hsize⟩ := w.retainAll_frame a.contents
      have hnew := Path.create (R := R + F) (a := a.reborn a.storage a.attrs) rfl rfl rfl rfl
        ⟨hshaped.storage, hshaped.constructed⟩ hkeeps (hinv.formed.concrete t a ha)
        ((hinv.typed.stored t a ha).of_eq rfl rfl) (hinv.homed.twins t a ha)
        ((hinv.tidied t a ha).of_eq rfl rfl) fun h hh => held_of_contents ha hh
      refine hnew.cast (add_zero _) ?_
      simp only [admitTwin, ofOk_ok, hframe, hsize]

theorem moveTwin_safe (hlent : Lends F t) :
    Act.Safe F 0 (ofOk Hold.dynamic) w (moveTwin t) := by
  intro R hreach
  obtain ⟨a, ha, hlive⟩ := hreach.live_of_lent hlent
  unfold moveTwin
  rw [twin_eq ha]
  dsimp only
  cases a.obstacle? .move with
  | some f => exact .refl
  | none =>
      have hinv := hreach.invariant
      have hkeeps := hinv.keepsKind_of_live ha hlive
      have hshaped := hinv.formed.shaped t a ha hlive
      obtain ⟨twins, hframe, hsize⟩ := w.retainAll_frame a.movedOut.contents
      obtain ⟨native, dynamic, hretained⟩ := getElem?_retainAll a.movedOut.contents ha
      have htaken : Path w (R + F + 0) (w.retainAll a.movedOut.contents)
          (R + F + 0 + ofHandles a.movedOut.contents) :=
        Path.retainAll _ fun h hh => hinv.held_of_defaultStorage hkeeps
          (by simpa [Twin.contents, Twin.movedOut, Twin.layout] using hh)
      have hdefault : w.Conforms a.movedOut := hinv.conforms_default hkeeps rfl
      have hstored := (Transition.store (R := R + F + 0) hretained hlive
        a.layout.defaultStorage {} a.owner true
        ((Layout.map_length_defaultStorage _).trans hshaped.storage.symm)
        a.movedOut.contents a.contents List.perm_append_comm
        (hdefault.mono htaken.persists) (Twin.tidy_of_empty rfl)).path
      have hmoved := modifyTwin_eq hretained Twin.movedOut
      have hreborn : (a.reborn a.storage a.attrs).Shaped := ⟨hshaped.storage, hshaped.constructed⟩
      have hconcrete : (a.reborn a.storage a.attrs).kind.Concrete := hinv.formed.concrete t a ha
      have hkind : ((w.retainAll a.movedOut.contents).modifyTwin t Twin.movedOut).KeepsKind
          (a.reborn a.storage a.attrs).kind :=
        (hkeeps.retainAll a.movedOut.contents).of_eq rfl rfl
      rw [hmoved] at hkind ⊢
      have hconforms : w.Conforms (a.reborn a.storage a.attrs) :=
        (hinv.typed.stored t a ha).of_eq rfl rfl
      have hcreated := (Transition.create (R := R + F + 0) rfl rfl rfl rfl hreborn hkind hconcrete
        (hconforms.mono (htaken.trans hstored).persists)
        ((hinv.homed.twins t a ha).mono (htaken.trans hstored).persists)
        ((hinv.tidied t a ha).of_eq rfl rfl)).path
      refine (htaken.trans (hstored.trans hcreated)).cast rfl ?_
      simp only [admitTwin, ofOk_ok, Hold.dynamic, ofHandles_singleton, size_setTwin, hframe, hsize,
        add_zero]

theorem materializeTwin_safe (hlent : Lends F t) :
    Act.Safe F 0 (ofOk Hold.dynamic) w (materializeTwin t) := by
  intro R hreach
  unfold materializeTwin
  dsimp only
  split
  · exact copyTwin_safe hlent R hreach
  · split
    · exact moveTwin_safe hlent R hreach
    · exact copyTwin_safe hlent R hreach

theorem reproduce_safe (hlent : Lends F t) (way : Reproduction) :
    Act.Safe F 0 (ofOk Hold.dynamic) w (reproduce way t) := by
  cases way with
  | copy => exact copyTwin_safe hlent
  | move => exact moveTwin_safe hlent
  | materialize => exact materializeTwin_safe hlent

/-- A dynamic handle is given for a native one. -/
theorem asNative_path {R : Hold} :
    Path w (R + Hold.dynamic t) (w.asNative t) (R + Hold.native t) := by
  have hheld : w.Held (R + Hold.dynamic t) t := by
    refine ⟨.dynamic t, Multiset.mem_add.mpr (Or.inr ?_), rfl⟩
    simp [Hold.dynamic]
  have hretained := (Transition.retain (h := .native t) hheld).path
  refine hretained.trans ((Path.drop [.dynamic t]).cast ?_ rfl)
  rw [Hold.dynamic, Hold.native, ofHandles_singleton (.native t)]
  abel

end World

end TwinObject
