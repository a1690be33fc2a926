/-
Arguments that dynamic code passes to native code.  What the selected overload takes by value is
bound to a new double of the argument, which stays as it is whatever is done to its double.
-/
import TwinObject.Proofs.Callers
import TwinObject.Proofs.Copies
import TwinObject.Proofs.Locality
import TwinObject.Proofs.Passages

namespace TwinObject

open Hold

variable {ε α : Type}

theorem Run.bind_congr {β : Type} {m k : Run ε α} {w u : World} (f : α → Run ε β)
    (h : m w = k u) : (m >>= f) w = (k >>= f) u :=
  congrArg (Course.andThen [] _) h

theorem Run.unlocked_congr {m k : Run ε α} {w : World} (kept : α → List Token) (i : InterpId)
    (h : m (World.leaveLock i w).2 = k (World.leaveLock i w).2) :
    Run.unlocked kept i m w = Run.unlocked kept i k w :=
  congrArg (Course.andThen [] fun e => Run.thenDo (e.held kept)
    (Run.resume i (World.leaveLock i w).1 : Run ε Unit) fun _ => Run.again e) h

section Functions

namespace Crossing

variable {w : World}

/-- Values that fit are converted to themselves. -/
theorem convertAll_fitted (done : List NativeValue) {rest : List (NativeValue × NativeType)}
    (hfitted : ∀ p ∈ rest, p.1.coerce w.census p.2 = some p.1) :
    convertAll fitNative done rest w
      = (.ok (done ++ rest.map Prod.fst), w.retainAll (rest.flatMap fun p => p.1.handles)) := by
  induction rest generalizing w done with
  | nil =>
      rw [List.map_nil, List.append_nil]
      rfl
  | cons p rest ih =>
      obtain ⟨n, ty⟩ := p
      have hn : n.coerce w.census ty = some n := hfitted (n, ty) List.mem_cons_self
      have hkept : coerceNative n ty w = (some n, w.retainAll n.handles) := by
        rw [coerceNative, hn]
      have hone : fitNative n ty w = (.ok n, w.retainAll n.handles) := by
        rw [fitNative, Act.bind_then (congrArg Prod.fst hkept), hkept]
        rfl
      have hrest : ∀ q ∈ rest, q.1.coerce (w.retainAll n.handles).census q.2 = some q.1 := by
        intro q hq
        have hof := hfitted q (List.mem_cons_of_mem _ hq)
        rw [NativeValue.coerce_rests (World.Still.retainAll w _).rests (World.has_of_coerce hof),
          hof]
      rw [convertAll, Act.bind_then (congrArg Prod.fst hone), hone]
      refine (ih (done ++ [n]) hrest).trans ?_
      rw [List.append_assoc, List.flatMap_cons, World.retainAll, World.retainAll, World.retainAll,
        List.foldl_append]
      rfl

theorem coerceArgs_fitted {ns : List NativeValue} {params : List NativeType}
    (hfitted : List.Forall₂ (fun n ty => n.coerce w.census ty = some n) ns params) :
    coerceArgs ns params .widening w = (some ns, w.retainAll (ns.flatMap NativeValue.handles)) := by
  have hlength := hfitted.length_eq
  have hall := convertAll_fitted [] fun p hp => (List.forall₂_iff_zip.mp hfitted).2 hp
  rw [List.map_fst_zip hlength.le, List.nil_append] at hall
  have hhandles : (ns.zip params).flatMap (fun p => p.1.handles)
      = ns.flatMap NativeValue.handles := by
    rw [← List.flatMap_map Prod.fst, List.map_fst_zip hlength.le]
  rw [hhandles] at hall
  have hconvert : coerceArgs ns params .widening w
      = (do return (← convertAll fitNative [] (ns.zip params)).toOption : Act _) w := by
    rw [coerceArgs, if_neg (not_not.mpr hlength)]
    rfl
  rw [hconvert, Act.bind_then (congrArg Prod.fst hall), hall]
  rfl

end Crossing

namespace World

variable {w x : World} {a : DynValue} {ty : NativeType} {n : NativeValue}

/-- What a parameter gets is of its type. -/
theorem Becomes.fitted (h : w.Becomes x a ty n) (hrests : w.Rests x) (hhas : w.Has a.handles) :
    n.coerce x.census ty = some n := by
  obtain ⟨m, hm, hpassed⟩ := h
  cases hpassed with
  | same =>
      have hof := DynValue.coerce_coerce hm
      rw [NativeValue.coerce_rests hrests (has_of_coerce hof), hof]
  | @copied c t new hreborn =>
      obtain rfl := DynValue.eq_object_of_coerce hm
      obtain ⟨hisA, -⟩ := DynValue.isA_of_coerce rfl hm
      have ht : t < w.twins.size := hhas (.dynamic t) (by simp [DynValue.handles])
      have hnew : x.isA new c = true := by
        rw [← hrests.isA ht] at hisA
        rw [isA_eq (Array.getElem?_eq_getElem hreborn.there), ← twin_eq
          (Array.getElem?_eq_getElem hreborn.there), hreborn.kind]
        rwa [isA_eq (Array.getElem?_eq_getElem (ht.trans_le hrests.size_le)), ← twin_eq
          (Array.getElem?_eq_getElem (ht.trans_le hrests.size_le))] at hisA
      exact (NativeValue.coerce_object rfl new).trans (if_pos hnew)

end World

namespace Call

variable {h : Host} {w x : World} {E F : Hold} {args : List DynValue} {context : String}

/-- Behind a gate code runs in a world with the same twins. -/
theorem gated_congr {i : InterpId} {g : Gate} {m k : Run Failure NativeValue}
    (hmk : ∀ y : World, y.twins = x.twins → m y = k y) : gated i g m x = gated i g k x := by
  unfold gated
  rw [Run.reads_then (f := (·.releases g)) rfl, Run.reads_then (f := (·.releases g)) rfl]
  split
  · exact Run.unlocked_congr _ i (m := Run.modify (World.passGate i) >>= fun _ => m)
      (k := Run.modify (World.passGate i) >>= fun _ => k) (hmk _ rfl)
  · exact hmk x rfl

/-- A function runs with arguments that fit as they are, of which it takes handles of its own. -/
theorem invoke_fitted {f : NativeFunction} {ns : List NativeValue}
    (hfitted : List.Forall₂ (fun n ty => n.coerce w.census ty = some n) ns f.params) :
    invoke h f ns w
      = Run.retaining (ns.flatMap NativeValue.handles) (h.native { args := ns } f.body) w := by
  have hcoerced := Crossing.coerceArgs_fitted hfitted
  unfold invoke
  rw [Run.act_then (congrArg Prod.fst hcoerced), hcoerced]
  rfl

/-- What parameters get is of their types. -/
theorem fitted_of_become {params : List NativeType} {ns : List NativeValue}
    (hhas : w.Has (args.flatMap DynValue.handles)) (hrests : w.Rests x)
    (hbecome : (Arguments.dynamic context args).Become w x params ns) :
    List.Forall₂ (fun n ty => n.coerce x.census ty = some n) ns params := by
  obtain ⟨hlength, hbound⟩ := hbecome
  have hparams : (args.zip params).map Prod.snd = params := List.map_snd_zip hlength.ge
  have hmember : ∀ p ∈ args.zip params, w.Has p.1.handles :=
    fun p hp => hhas.of_flatMap (List.of_mem_zip hp).1
  rw [← hparams, List.forall₂_map_right_iff]
  refine .flip (((List.forall₂_and_left _ _).mpr ⟨hmember, hbound⟩).imp ?_)
  rintro p n ⟨hknown, hbecomes⟩
  exact hbecomes.fitted hrests hknown

/-- How a function is run on behalf of dynamic code. -/
def runFunction (h : Host) (i : InterpId) (f : NativeFunction) (ns : List NativeValue) :
    Run Thrown DynValue :=
  Run.mapError Failure.raise (withArgs ns do
    let r ← gated i f.gate
      (Run.retaining (ns.flatMap NativeValue.handles) (h.native { args := ns } f.body))
    Run.act (Crossing.toDynamic r))

theorem argsToNative_widening (context : String) {params : List NativeType}
    (hlength : args.length = params.length) :
    Crossing.argsToNative context args params .widening w
      = ((Crossing.convertAll (Crossing.toNative context) [] (args.zip params) w).1.toOption,
        (Crossing.convertAll (Crossing.toNative context) [] (args.zip params) w).2) := by
  rw [Crossing.argsToNative, if_neg (not_not.mpr hlength)]
  rfl

/-- A function runs with its arguments as they were converted, if these are of the types of its
parameters. -/
theorem callFunction_fitted (i : InterpId) {f : NativeFunction} {ns : List NativeValue}
    (hlength : args.length = f.params.length)
    (hconverted : Crossing.convertAll (Crossing.toNative ("argument of '" ++ f.name ++ "'")) []
      (args.zip f.params) w = (.ok ns, x))
    (hfitted : List.Forall₂ (fun n ty => n.coerce x.census ty = some n) ns f.params) :
    callFunction h i f args w = runFunction h i f ns x := by
  rw [callFunction, if_neg (not_not.mpr hlength)]
  refine (Run.mapError_congr _ (Run.act_ok hconverted)).trans ?_
  refine Run.mapError_congr _ (Run.holding_congr _ (Run.bind_congr _ ?_))
  refine gated_congr fun y hy => invoke_fitted (hfitted.imp fun n ty hof => ?_)
  rw [NativeValue.coerce_rests (.of_eq hy) (World.has_of_coerce hof), hof]

/-- A call of a function goes on with the arguments that it was given. -/
theorem callFunction_enters (hattained : Attained w (E + F)) (i : InterpId) (f : NativeFunction)
    (hargs : LendsAll F (args.flatMap DynValue.handles)) :
    (callFunction h i f args).Enters
      (Passage.through (· = f) NativeFunction.params (runFunction h i) args) w.Tried w w := by
  by_cases hlength : args.length = f.params.length
  · have hhas := hattained.has_of_lends (hargs.right (F := E))
    have htried := World.Tried.respected.argsToNative ("argument of '" ++ f.name ++ "'") args
      f.params .widening w
    obtain ⟨hthere, -⟩ := hattained.step (Crossing.argsToNative_safe
      ("argument of '" ++ f.name ++ "'") f.params .widening (hargs.right (F := E)))
    have hwiden := argsToNative_widening (w := w) ("argument of '" ++ f.name ++ "'") hlength
    cases hconverted : Crossing.convertAll (Crossing.toNative ("argument of '" ++ f.name ++ "'")) []
        (args.zip f.params) w with
    | mk converted x =>
        rw [hconverted] at hwiden
        rw [hwiden] at htried hthere
        cases converted with
        | error e =>
            refine .fails (e := e.raise) ?_ htried
            rw [callFunction, if_neg (not_not.mpr hlength)]
            exact Run.mapError_congr (k := Run.raise e) _ (Run.act_error hconverted)
        | ok ns =>
            have hbecome : (Arguments.dynamic ("argument of '" ++ f.name ++ "'") args).Become w x
                f.params ns := by
              have hof := Crossing.becomes_argsToNative _ hhas (.refl w) (congrArg Prod.fst hwiden)
              rwa [hwiden] at hof
            refine .of_become hattained LendsAll.nil hargs rfl hbecome htried (hthere.cast ?_) ?_
            · rw [ofHandles_nil, add_zero]
              rfl
            · exact callFunction_fitted i hlength hconverted
                (fitted_of_become hhas htried.rests hbecome)
  · rw [callFunction, if_pos hlength]
    exact .fails rfl (.of_still (.refl w) (Multiset.Subset.refl _))

section Methods

variable {t : TwinId} {name : String}

/-- How a slot or a method is run on behalf of dynamic code, which lends it a handle to the
instance. -/
def runOn (t : TwinId) (m : Run Failure DynValue) : Run Thrown DynValue :=
  Run.mapError Failure.raise (Run.holding [.native t] m)

theorem runOn_congr (t : TwinId) {m k : Run Failure DynValue} {u : World} (h : m w = k u) :
    runOn t m w = runOn t k u :=
  Run.mapError_congr _ (Run.holding_congr _ h)

theorem runOn_raise (t : TwinId) (f : Failure) (w : World) :
    runOn t (Run.raise f) w = .ended (.raised f.raise) (w.drop [.native t]) :=
  rfl

/-- The passages of a call of an instance's native code by name: through its virtual slots, and
through its methods. -/
def methodPassages (h : Host) (w : World) (t : TwinId) (name : String) (args : List DynValue) :
    Set (Passage Thrown DynValue) :=
  Passage.slots (w.twin t).kind.vtable name (fun e ns => runOn t (runSlot h t ⟨e.1, ns⟩)) args
    ∪ Passage.methods w t name
      (fun c ns => runOn t (runMethod h t name (w.twin t).interp c.1.id ns c.2.body)) args

variable (hattained : Attained w (E + F)) (hlent : Lends F t)
  (hargs : LendsAll F (args.flatMap DynValue.handles))
  (hinherits : ∀ c, (w.twin t).kind = .dynamic c → c.findMethod? name = none)

include hattained hlent hargs hinherits

theorem callMethod_enters_slot (hslots : (w.twin t).kind.vtable.hasMethod name = true) :
    (callMethod h t name args).Enters (Passage.slots (w.twin t).kind.vtable name
      (fun e ns => runOn t (runSlot h t ⟨e.1, ns⟩)) args) w.Tried w w := by
  have hrun := callMethod_virtual h hinherits (hattained.lt_of_lends hlent.right) hslots args
  refine .of_resolve hattained (LendsAll.native hlent) hargs ("argument of '" ++ name ++ "'")
    (w.twin t).name (fun s slot x hresolve _ => ?_) fun f x hresolve => ?_
  · exact hrun.trans (runOn_congr t (Run.act_ok hresolve))
  · refine ⟨_, _, hrun.trans (.trans ?_ (runOn_raise t f x)), World.Tried.respected.drop x _⟩
    exact runOn_congr t (Run.act_error hresolve)

theorem callMethod_enters_method (hplain : (w.twin t).kind.vtable.hasMethod name = false) :
    (callMethod h t name args).Enters (Passage.methods w t name
      (fun c ns => runOn t (runMethod h t name (w.twin t).interp c.1.id ns c.2.body)) args)
      w.Tried w w := by
  have ht := hattained.lt_of_lends hlent.right
  have hrun := (callMethod_inherited h hinherits args).trans
    (Run.mapError_congr _ (callNativeMethod_plain h t name ht hplain))
  cases hc : (w.twin t).layout.declaring? name with
  | none =>
      rw [hc] at hrun
      refine .fails (hrun.trans (runOn_raise t _ _)) ?_
      exact World.Tried.respected.trans (World.Tried.respected.retainAll w _)
        (World.Tried.respected.drop _ _)
  | some c =>
      rw [hc] at hrun
      refine (Run.Enters.of_pick hattained (LendsAll.native hlent) hargs
        ("argument of '" ++ name ++ "'")
        ((c.overloads name).filter fun m => m.access.visible (w.twin t).kind.fromDerived)
        (fun d ns => runOn t (runMethod h t name (w.twin t).interp c.id ns d.body))
        (fun d ns x hpick => ?_) fun x hpick => ?_).subset ?_
      · refine hrun.trans (runOn_congr t ((Run.act_then (congrArg Prod.fst hpick)).trans ?_))
        exact congrArg (runMethod h t name (w.twin t).interp c.id ns d.body)
          (congrArg Prod.snd hpick)
      · refine ⟨_, _, hrun.trans (.trans ?_ (runOn_raise t (.noSuchMethod (w.twin t).name name) x)),
          World.Tried.respected.drop x _⟩
        exact runOn_congr t ((Run.act_then (congrArg Prod.fst hpick)).trans
          (congrArg (Course.ended _) (congrArg Prod.snd hpick)))
      · rintro p ⟨d, hd, hlength, rfl⟩
        obtain ⟨hmem, hvisible⟩ := List.mem_filter.mp hd
        exact ⟨(c, d), ⟨hc, hmem, hvisible⟩, hlength, rfl⟩

/-- A call of native code of an instance goes on through a virtual slot or a method. -/
theorem callMethod_enters : (callMethod h t name args).Enters (methodPassages h w t name args)
    w.Tried w w := by
  cases hslots : (w.twin t).kind.vtable.hasMethod name with
  | true =>
      exact (callMethod_enters_slot hattained hlent hargs hinherits hslots).subset
        Set.subset_union_left
  | false =>
      exact (callMethod_enters_method hattained hlent hargs hinherits hslots).subset
        Set.subset_union_right

end Methods

section Base

variable {t : TwinId} {c : NativeClass} {name : String} {conv : Conversion Act}

/-- How the body that a slot has is run on behalf of dynamic code, past any override. -/
def runBase (h : Host) (t : TwinId) (e : Nat × Slot) (ns : List NativeValue) :
    Run Failure DynValue := do
  let r ← Run.holding [.native t] (withArgs ns (runDefault h e.2 (pureCall e.2) t ns))
  Run.act (Crossing.toDynamic r)

/-- The answer to a call of a body of a class that an instance is not of. -/
def baseMisfit (k : Kind) (c : NativeClass) (name : String) : Failure :=
  .typeMismatch ("base call '" ++ c.name ++ "::" ++ name ++ "'") c.name k.name

theorem callBaseWith_misfit (hisA : ¬(w.twin t).kind.isA c.name = true) :
    callBaseWith h conv t c name w
      = .ended (.raised (baseMisfit (w.twin t).kind c name)) w := by
  unfold callBaseWith
  rw [Run.reads_then (f := fun w => (w.twin t).kind) rfl, Bool.eq_false_iff.mpr hisA]
  rfl

section Resolved

variable (hisA : (w.twin t).kind.isA c.name = true)

include hisA

theorem callBaseWith_ok {s : Selection} {slot : Slot}
    (hresolve : c.vtable.resolve conv c.name name false w = (.ok s, x))
    (hslot : c.vtable.get? s.index = some slot) : callBaseWith h conv t c name w
      = withArgs s.args (runDefault h slot (pureCall slot) t s.args) x := by
  unfold callBaseWith
  rw [Run.reads_then (f := fun w => (w.twin t).kind) rfl, hisA]
  refine (Run.act_ok hresolve).trans ?_
  rw [hslot]

theorem callBaseWith_error {f : Failure}
    (hresolve : c.vtable.resolve conv c.name name false w = (.error f, x)) :
    callBaseWith h conv t c name w = .ended (.raised f) x := by
  unfold callBaseWith
  rw [Run.reads_then (f := fun w => (w.twin t).kind) rfl, hisA]
  exact Run.act_error hresolve

end Resolved

/-- Dynamic code holds the instance for the time of the call. -/
theorem callBaseDynamic_raised {args : List DynValue} {f : Failure}
    (hraised : callBaseWith h
      (Crossing.fromDynamic ("argument of '" ++ c.name ++ "::" ++ name ++ "'") args) t c name
        (w.retainAll [.native t]) = .ended (.raised f) x) :
    callBaseDynamic h t c name args w = .ended (.raised f) (x.drop [.native t]) :=
  Run.bind_congr (k := Run.raise f) _ (Run.holding_congr (k := Run.raise f) _ hraised)

theorem callBaseDynamic_ok {args : List DynValue} {s : Selection} {slot : Slot}
    (hisA : ((w.retainAll [.native t]).twin t).kind.isA c.name = true)
    (hresolve : c.vtable.resolve
      (Crossing.fromDynamic ("argument of '" ++ c.name ++ "::" ++ name ++ "'") args) c.name name
        false (w.retainAll [.native t]) = (.ok s, x))
    (hslot : c.vtable.get? s.index = some slot) :
    callBaseDynamic h t c name args w = runBase h t (s.index, slot) s.args x :=
  Run.bind_congr _ (Run.holding_congr _ (callBaseWith_ok hisA hresolve hslot))

/-- A call of the native body that a class itself has goes on through a slot of its table. -/
theorem callBaseDynamic_enters (hattained : Attained w (E + F)) (hlent : Lends F t)
    (hargs : LendsAll F (args.flatMap DynValue.handles)) :
    (callBaseDynamic h t c name args).Enters (Passage.slots c.vtable name (runBase h t) args)
      w.Tried w w := by
  by_cases hisA : ((w.retainAll [.native t]).twin t).kind.isA c.name = true
  · refine .of_resolve hattained (LendsAll.native hlent) hargs
      ("argument of '" ++ c.name ++ "::" ++ name ++ "'") c.name
      (fun s slot x hresolve hslot => ?_) fun f x hresolve => ?_
    · exact callBaseDynamic_ok hisA hresolve hslot
    · exact ⟨f, _, callBaseDynamic_raised (callBaseWith_error hisA hresolve),
        World.Tried.respected.drop x _⟩
  · exact .fails (callBaseDynamic_raised (callBaseWith_misfit hisA))
      (World.Tried.respected.trans (World.Tried.respected.retainAll w _)
        (World.Tried.respected.drop _ _))

end Base

end Call

end Functions

namespace Constructor

variable {c : Constructor} {g : ArgGroup} {q : Param × Supply} {a : DynValue}

/-- The argument that is supplied, if there is one. -/
def Supply.argument? : Supply → Option DynValue
  | given v _ => some v
  | _ => none

/-- The arguments that are supplied are of the group. -/
theorem handles_argument (hq : q ∈ supplies g.keywords c.params g.positional)
    (ha : q.2.argument? = some a) : ∀ x ∈ a.handles, x ∈ g.handles := by
  obtain ⟨i, hi⟩ := List.mem_iff_getElem?.mp hq
  rw [getElem?_supplies, Option.map_eq_some_iff] at hi
  obtain ⟨p, -, rfl⟩ := hi
  intro x hx
  refine handles_supply p i x ?_
  dsimp only at ha
  cases hsupply : supply p g.positional[i]? g.keywords with
  | given v byKeyword =>
      rw [hsupply] at ha
      cases ha
      exact hx
  | _ =>
      rw [hsupply] at ha
      cases ha

/-- The parameters of a constructor, with the arguments that a group has for them. -/
def parameters (c : Constructor) (g : ArgGroup) : List (NativeType × Option DynValue) :=
  (supplies g.keywords c.params g.positional).map fun q => (q.1.type, q.2.argument?)

end Constructor

namespace Construction

variable {h : Host} {s : Site} {g : ArgGroup} {fromDerived : Bool} {w x : World} {E F : Hold}

/-- The passages of the construction of a segment: through each visible constructor that has a
parameter for every positional argument. -/
def passages (h : Host) (s : Site) (g : ArgGroup) (fromDerived : Bool) :
    Set (Passage Failure Unit) :=
  {p | ∃ c ∈ s.cls.constructors, c.access.visible fromDerived = true
    ∧ g.positional.length ≤ c.params.length ∧ p = ⟨c.parameters g, runBody h s c⟩}

theorem attained_resetSegment (hattained : Attained w (E + F)) (hlent : Lends F s.twin)
    (hfits : s.Fits w) : Attained (resetSegment s w) (E + F) ∧ s.Fits (resetSegment s w) := by
  obtain ⟨hthere, hpersists, -⟩ := Attained.along (hattained.cast (add_zero _))
    fun S hreach => Site.reset_path hreach hlent.right hfits
  exact ⟨hthere.cast (add_zero _).symm, hfits.mono hpersists⟩

/-- The construction of a segment goes on through a visible constructor. -/
theorem constructOwn_enters (hattained : Attained w (E + F)) (hlent : Lends F s.twin)
    (hfits : s.Fits w) (hgroup : LendsAll F g.handles) (hsome : s.cls.constructors ≠ []) :
    (constructOwn h s g fromDerived).Enters (passages h s g fromDerived) (resetSegment s w).Tried w
      (resetSegment s w) := by
  obtain ⟨hreset, hfits⟩ := attained_resetSegment hattained hlent hfits
  generalize hv : resetSegment s w = v at hreset hfits
  have hhas := has_of_fits hreset hlent.right hfits hgroup.right
  have htried : v.Tried (searchFor s g fromDerived v).2 := World.Tried.respected.search
    (contextOf s) g fromDerived s.cls.constructors Fit.order false v
  obtain ⟨hthere, -⟩ := hreset.step (Choice.search_safe (contextOf s) fromDerived
    s.cls.constructors Fit.order false (hgroup.right (F := E)) (Site.vouches hlent.right hfits))
  replace hthere : Attained (searchFor s g fromDerived v).2
    (E + F + (searchFor s g fromDerived v).1.hold) := hthere
  cases hsearch : searchFor s g fromDerived v with
  | mk choice x =>
      rw [hsearch] at htried hthere
      cases choice with
      | chosen c args =>
          obtain ⟨hmem, hvisible, fit, hgives⟩ := chosen_of_search hhas (congrArg Prod.fst hsearch)
          rw [hsearch] at hgives
          obtain ⟨hshort, -, hyields⟩ :=
            Constructor.of_gives (Constructor.has_of_mem hhas hmem) hgives
          refine .through ⟨c, hmem, hvisible, hshort, rfl⟩
            (constructOwn_of_chosen hsome (hv ▸ hsearch))
            (htried.passes (fun d => hreset.lt_size) hthere ?_ ?_)
          · intro p hp a ha
            obtain ⟨q, hq, rfl⟩ := List.mem_map.mp hp
            have hargument := Constructor.handles_argument hq ha
            exact ⟨(hgroup.right (F := E)).subset hargument, hhas.subset fun d hd =>
              List.mem_append_left _ (hargument d hd)⟩
          · rw [Constructor.parameters, List.forall₂_map_left_iff]
            refine hyields.imp fun q n hyield a ha => ?_
            obtain ⟨p, supply⟩ := q
            cases supply with
            | given v byKeyword =>
                cases ha
                exact hyield
            | _ => cases ha
      | _ =>
          refine .fails (constructOwn_of_refused hsome (hv ▸ hsearch) fun c args hchosen => ?_)
            htried
          cases hchosen

end Construction

/-- Whether a twin is still there, and as it was if it is alive. -/
def World.RestsAt (t : TwinId) (w u : World) : Prop :=
  ∀ a, w.twins[t]? = some a → ∃ b, u.twins[t]? = some b ∧ a.Rests b

namespace World.RestsAt

variable {t i : TwinId} {w u v : World}

theorem trans (h : RestsAt t w u) (h' : RestsAt t u v) : RestsAt t w v := by
  intro a ha
  obtain ⟨b, hb, hab⟩ := h a ha
  obtain ⟨c, hc, hbc⟩ := h' b hb
  exact ⟨c, hc, hab.trans hbc⟩

/-- What is done to one twin leaves the others as they are. -/
theorem disregards (hne : i ≠ t) : Disregards (RestsAt t) i where
  refl w := Rests.refl w t
  trans := trans
  retainAll w hs := (Still.retainAll w hs).rests t
  drop w hs := (Still.drop w hs).rests t
  copyTwin s w := Rests.copyTwin w s t
  astray w _ := (Still.record w _).rests t
  modifyTwin w f a ha := by
    refine ⟨a, ?_, .refl a⟩
    rw [World.modifyTwin, Array.getElem?_modify, if_neg hne, ha]
  admitTwin w a := Rests.admitTwin w a t

end World.RestsAt

/-- Changes to other instances leave one that is held alive and as it is, apart from how many
handles there are to it. -/
theorem Change.bare_makeAll {S : Hold} {w : World} {t : TwinId} {cs : List Change}
    (hattained : Attained w (S + allSpend cs)) (hlent : Lends S t)
    (hcs : ∀ c ∈ cs, Lends S c.target ∧ c.target ≠ t) :
    (makeAll cs w).Alive t ∧ ((makeAll cs w).twin t).bare = (w.twin t).bare := by
  have hthere := attained_makeAll cs hattained fun c hc => (hcs c hc).1
  obtain ⟨b, hb, hlive⟩ := hthere.alive_of_lent hlent.left
  obtain ⟨a, ha, -⟩ := hattained.alive_of_lent hlent.left
  have hrests : World.RestsAt t w (makeAll cs w) := leads_makeAll cs w (World.Rests.refl w t)
    fun c hc => World.RestsAt.disregards (hcs c hc).2
  obtain ⟨b', hb', hab⟩ := hrests a ha
  cases hb.symm.trans hb'
  rw [World.twin_eq ha, World.twin_eq hb]
  exact ⟨⟨b, hb, hlive⟩, hab.bare hlive⟩

/-- What dynamic code passes to native code is isolated.  A call of a function, of an instance's
native code by name, of the native body of a base, or of a constructor goes on through an overload
or fails.  If it goes on, each argument that is taken by value is bound to a new native-owned
instance of its class with the same in both halves, and by reference or pointer to itself; all
that was there is as it was, and of what came into being only what is passed is alive.  If it
fails, nothing of that is alive.  And at the end of the call, however that comes about and
whatever other threads do meanwhile, only what somebody keeps a handle to.  Whatever is changed
in a double, or in any other instance, an argument that is held stays as it is. -/
theorem arguments_isolated (depth : Nat) :
    (∀ (F E : Hold) (w : World) (args : List DynValue), Attained w (E + F) →
      LendsAll F (args.flatMap DynValue.handles) →
        let h : Host := .nested .memo depth
        (∀ i f, (Call.callFunction h i f args).Isolates
          (Passage.through (· = f) NativeFunction.params (Call.runFunction h i) args)
            DynValue.hold F E w w)
        ∧ (∀ t name, Lends F t →
          (∀ c, (w.twin t).kind = .dynamic c → c.findMethod? name = none) →
          (Call.callMethod h t name args).Isolates (Call.methodPassages h w t name args)
            DynValue.hold F E w w)
        ∧ ∀ t c name, Lends F t → (Call.callBaseDynamic h t c name args).Isolates
          (Passage.slots c.vtable name (Call.runBase h t) args) DynValue.hold F E w w)
    ∧ (∀ (F E : Hold) (w : World) (s : Site) (g : ArgGroup) (fromDerived : Bool),
      Attained w (E + F) → Lends F s.twin → s.Fits w → LendsAll F g.handles →
      s.cls.constructors ≠ [] →
        let h : Host := .nested .memo depth
        (Construction.constructOwn h s g fromDerived).Isolates
          (Construction.passages h s g fromDerived) (fun _ => 0) F E w
          (Construction.resetSegment s w))
    ∧ ∀ (S : Hold) (w : World) (t : TwinId) (cs : List Change),
      Attained w (S + Change.allSpend cs) → Lends S t → (∀ c ∈ cs, Lends S c.target ∧ c.target ≠ t) →
        (Change.makeAll cs w).Alive t
        ∧ ((Change.makeAll cs w).twin t).bare = (w.twin t).bare := by
  have hsafe := Host.nested_safe Dispatcher.memo.noSlot Dispatcher.memo.bare depth
  refine ⟨fun F E w args hattained hargs => ⟨?_, ?_, ?_⟩, ?_, ?_⟩
  · intro i f
    exact (Call.callFunction_safe hsafe i f hargs).isolates hattained hattained
      (Call.callFunction_enters hattained i f hargs)
  · intro t name hlent hinherits
    exact (Call.callMethod_safe hsafe hlent name hargs).isolates hattained hattained
      (Call.callMethod_enters hattained hlent hargs hinherits)
  · intro t c name hlent
    exact (Call.callBaseDynamic_safe hsafe hlent c name hargs).isolates hattained hattained
      (Call.callBaseDynamic_enters hattained hlent hargs)
  · intro F E w s g fromDerived hattained hlent hfits hgroup hsome
    exact (Construction.constructOwn_safe hsafe fromDerived hlent hfits hgroup).isolates hattained
      (Construction.attained_resetSegment hattained hlent hfits).1
      (Construction.constructOwn_enters hattained hlent hfits hgroup hsome)
  · intro S w t cs hattained hlent hcs
    exact Change.bare_makeAll hattained hlent hcs

/-! A gauge is passed by value to a function that changes what it gets. -/

namespace Gauge

def reset : NativeFunction where
  serial := 0
  name := "reset"
  params := [.object "Gauge"]
  ret := .int
  body := .seq [.setField (.arg 0) "level" (.lit (.int 9)), .field (.arg 0) "level"]

end Gauge

open Gauge in
theorem arguments_isolated_gauge :
    (∃ u, Call.callFunction (.nested .memo 3) 0 reset [.object 0] full
        = .ended (.value (.int 9)) u ∧ u.twins.size = 2 ∧ ¬u.Alive 1)
    ∧ (∃ u, Construction.constructOwn (.nested .memo 3) ⟨0, 0, gauge⟩ arguments false full
        = .ended (.value ()) u ∧ ¬u.Alive 1)
    ∧ ∃ u, World.copyTwin 0 full = (.ok 1, u)
      ∧ ((World.setField 1 "level" (.int 9) u).2.twin 0).storage = [[.int 7]] := by
  have hlent : LendsAll {.handle (.dynamic 0)} [.dynamic 0] := LendsAll.self [.dynamic 0]
  have hattained : Attained full (0 + {.handle (.dynamic 0)}) := full_attained.cast (zero_add _)
  obtain ⟨hcalls, hconstructs, hchanges⟩ := arguments_isolated 3
  refine ⟨?_, ?_, ?_⟩
  · have hrun : ∃ u, Call.callFunction (.nested .memo 3) 0 reset [.object 0] full
        = .ended (.value (.int 9)) u ∧ u.twins.size = 2 ∧ u.roots = [] := by
      with_unfolding_all exact ⟨_, rfl, rfl, rfl⟩
    obtain ⟨u, hu, hsize, hroots⟩ := hrun
    have hisolates := (hcalls _ _ full [.object 0] hattained hlent).1 0 reset
    exact ⟨u, hu, hsize, hisolates.gone hu hroots (by rintro a ⟨⟩; rfl) le_rfl⟩
  · have hrun : ∃ u, Construction.constructOwn (.nested .memo 3) ⟨0, 0, gauge⟩ arguments false full
        = .ended (.value ()) u ∧ u.roots = [] := by
      with_unfolding_all exact ⟨_, rfl, rfl⟩
    obtain ⟨u, hu, hroots⟩ := hrun
    have hisolates := hconstructs _ _ full ⟨0, 0, gauge⟩ arguments false hattained lent
      ⟨_, rfl, rfl⟩ LendsAll.nil (List.cons_ne_nil _ _)
    exact ⟨u, hu, hisolates.gone hu hroots (fun _ _ => rfl) le_rfl⟩
  · have hheld : Attained full (0 + {.handle (.dynamic 0)} + 0) := hattained.cast (add_zero _)
    have hcopied := (hheld.act (World.copyTwin_safe lent)).1
    have hcopy : ∃ u, World.copyTwin 0 full = (.ok 1, u) ∧ (u.twin 0).storage = [[.int 7]] := by
      with_unfolding_all exact ⟨_, rfl, rfl⟩
    obtain ⟨u, hu, hstored⟩ := hcopy
    rw [hu] at hcopied
    obtain ⟨-, hbare⟩ := hchanges _ u 0 [.setField 1 "level" (.int 9)]
      (hcopied.cast (add_zero _)) lent.right.left fun c hc => by
        obtain rfl := List.mem_singleton.mp hc
        exact ⟨.of_dynamic 1, nofun⟩
    exact ⟨u, hu, (congrArg (·.storage) hbare : _ = (u.twin 0).storage).trans hstored⟩

end TwinObject
