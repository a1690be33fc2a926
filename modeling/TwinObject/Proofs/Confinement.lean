/-
Code that is confined to one segment of an instance.  It writes to nothing else, and in worlds
that agree on that segment it ends alike and leaves the segment alike.
-/
import TwinObject.Proofs.Agreement
import TwinObject.Proofs.AtOnce
import TwinObject.Proofs.Safe.Eval

namespace TwinObject

open Hold

/-- Whether one course ends at once only as another one does too, in related worlds. -/
def Course.Follows {ε α : Type} (Q : Ending ε α → World → World → Prop) (c₁ c₂ : Course ε α) :
    Prop :=
  ∀ e u₁, c₁ = .ended e u₁ → ∃ u₂, c₂ = .ended e u₂ ∧ Q e u₁ u₂

namespace Course.Follows

variable {ε ε' α β : Type} {Q : Ending ε α → World → World → Prop}
  {Q' : Ending ε' β → World → World → Prop} {c₁ c₂ : Course ε α}

theorem ended {e : Ending ε α} {u₁ u₂ : World} (hQ : Q e u₁ u₂) :
    Follows Q (.ended e u₁) (.ended e u₂) := by
  rintro e u₁ ⟨⟩
  exact ⟨u₂, rfl, hQ⟩

/-- What is held meanwhile may differ. -/
theorem andThen {held held' : List Token} {next : Ending ε α → World → Course ε' β}
    (hc : Follows Q c₁ c₂) (hnext : ∀ e v₁ v₂, c₁ = .ended e v₁ → c₂ = .ended e v₂ → Q e v₁ v₂ →
      Follows Q' (next e v₁) (next e v₂)) :
    Follows Q' (c₁.andThen held next) (c₂.andThen held' next) := by
  intro e u₁ hended
  obtain ⟨e', v₁, hfirst, hlater⟩ := ended_of_andThen hended
  obtain ⟨v₂, hsecond, hQ⟩ := hc e' v₁ hfirst
  obtain ⟨u₂, hlater', hQ'⟩ := hnext e' v₁ v₂ hfirst hsecond hQ e u₁ hlater
  refine ⟨u₂, ?_, hQ'⟩
  rw [hsecond]
  exact hlater'

theorem mono {Q₁ : Ending ε α → World → World → Prop} (hc : Follows Q c₁ c₂)
    (hQ : ∀ e u₁ u₂, Q e u₁ u₂ → Q₁ e u₁ u₂) : Follows Q₁ c₁ c₂ := by
  intro e u₁ hended
  obtain ⟨u₂, hended', h⟩ := hc e u₁ hended
  exact ⟨u₂, hended', hQ e u₁ u₂ h⟩

/-- Courses that follow each other end at once in the same ways. -/
theorem ends_iff {Q₁ : Ending ε α → World → World → Prop} (hforth : Follows Q c₁ c₂)
    (hback : Follows Q₁ c₂ c₁) (e : Ending ε α) :
    (∃ u₁, c₁ = .ended e u₁) ↔ ∃ u₂, c₂ = .ended e u₂ := by
  constructor
  · rintro ⟨u₁, hended⟩
    obtain ⟨u₂, hended', -⟩ := hforth e u₁ hended
    exact ⟨u₂, hended'⟩
  · rintro ⟨u₂, hended⟩
    obtain ⟨u₁, hended', -⟩ := hback e u₂ hended
    exact ⟨u₁, hended'⟩

end Course.Follows

namespace World

/-- Whether two worlds went on with writes to some segments of an instance only, and these
came out alike if it is `done`. -/
structure Fills (t : TwinId) (S : Set Nat) (done : Prop) (w₁ w₂ u₁ u₂ : World) : Prop where
  left : w₁.WritesIn t S u₁
  right : w₂.WritesIn t S u₂
  alike : done → u₁.Shares t S u₂

namespace Fills

variable {t : TwinId} {S T : Set Nat} {done : Prop} {w₁ w₂ v₁ v₂ u₁ u₂ : World}

theorem refl (h : w₁.Shares t S w₂) : Fills t S done w₁ w₂ w₁ w₂ :=
  ⟨.of_still (.refl w₁), .of_still (.refl w₂), fun _ => h⟩

theorem trans {first : Prop} (h : Fills t S first w₁ w₂ v₁ v₂) (hfirst : first)
    (h' : Fills t T done v₁ v₂ u₁ u₂) : Fills t (S ∪ T) done w₁ w₂ u₁ u₂ where
  left := h.left.trans h'.left
  right := h.right.trans h'.right
  alike hdone := (h.alike hfirst).extend h'.left h'.right (h'.alike hdone)

theorem again (h : Fills t S True w₁ w₂ v₁ v₂) (h' : Fills t S done v₁ v₂ u₁ u₂) :
    Fills t S done w₁ w₂ u₁ u₂ where
  left := h.left.again h'.left
  right := h.right.again h'.right
  alike := h'.alike

/-- Each of the worlds is adjusted afterwards. -/
theorem adjust (h : Fills t S done w₁ w₂ v₁ v₂) (h₁ : v₁.Adjusts t u₁) (h₂ : v₂.Adjusts t u₂) :
    Fills t S done w₁ w₂ u₁ u₂ where
  left := h.left.again (h₁.writes S)
  right := h.right.again (h₂.writes S)
  alike hdone := (h₂.shares (h₁.shares (h.alike hdone)).symm).symm

/-- Handles are let go afterwards, of either world its own. -/
theorem still (h : Fills t S done w₁ w₂ v₁ v₂) (h₁ : v₁.Still u₁) (h₂ : v₂.Still u₂) :
    Fills t S done w₁ w₂ u₁ u₂ :=
  h.adjust (.of_still h₁) (.of_still h₂)

/-- Each of the worlds was adjusted before. -/
theorem since (h : Fills t S done v₁ v₂ u₁ u₂) (h₁ : w₁.Adjusts t v₁) (h₂ : w₂.Adjusts t v₂) :
    Fills t S done w₁ w₂ u₁ u₂ where
  left := (h₁.writes S).again h.left
  right := (h₂.writes S).again h.right
  alike := h.alike

theorem mono (h : Fills t S done w₁ w₂ u₁ u₂) (hTS : S ⊆ T) {later : Prop}
    (hdone : later → done ∧ T ⊆ S) : Fills t T later w₁ w₂ u₁ u₂ where
  left := h.left.mono hTS
  right := h.right.mono hTS
  alike hlater := (h.alike (hdone hlater).1).mono (hdone hlater).2

end Fills

/-- Whether all that a native frame refers to is lent to the code that runs in it. -/
def Supports (w : World) (f : NativeFrame) : Prop :=
  ∃ R, Attained w R ∧ f.Lent R w

end World

/-- Whether the body of a constructor depends on nothing but its arguments and the segment
that it fills, and writes to that alone: it ends alike in worlds that agree on these.  What it
does with the instance itself counts only if that may be `passed` to it. -/
def Host.Confines (h : Host) (passed : Prop) (body : NativeExpr) : Prop :=
  ∀ (s : Site) (args : List NativeValue) (w₁ w₂ : World), (.object s.twin ∈ args → passed) →
    w₁.Supports { args, site := some s } → w₂.Supports { args, site := some s } →
    w₁.Shares s.twin {s.segment} w₂ →
    Course.Follows (fun _ u₁ u₂ => World.Fills s.twin {s.segment} True w₁ w₂ u₁ u₂)
      (h.native { args, site := some s } body w₁) (h.native { args, site := some s } body w₂)

/-- Native code that computes with values, its arguments and the segment that it fills, and
reads members of its arguments unless the instance itself may be `passed` among them. -/
inductive NativeExpr.Plain (passed : Prop) : NativeExpr → Prop
  | lit (l : Literal) : Plain passed (.lit l)
  | arg (i : Nat) : Plain passed (.arg i)
  | argCount : Plain passed .argCount
  | seq {es : List NativeExpr} (hes : ∀ e ∈ es, Plain passed e) : Plain passed (.seq es)
  | cond {c a b : NativeExpr} (hc : Plain passed c) (ha : Plain passed a) (hb : Plain passed b) :
      Plain passed (.cond c a b)
  | binary (op : BinaryOp) {a b : NativeExpr} (ha : Plain passed a) (hb : Plain passed b) :
      Plain passed (.binary op a b)
  | fail (f : Failure) : Plain passed (.fail f)
  | attempt {e : NativeExpr} (he : Plain passed e) : Plain passed (.attempt e)
  | log (text : String) : Plain passed (.log text)
  | typeName {e : NativeExpr} (he : Plain passed e) : Plain passed (.typeName e)
  | field (hpassed : ¬passed) (i : Nat) (name : String) : Plain passed (.field (.arg i) name)
  | initField (name : String) {e : NativeExpr} (he : Plain passed e) :
      Plain passed (.initField name e)
  | getInit (name : String) : Plain passed (.getInit name)

namespace World

variable {w u v : World}

/-- Whether no instance came alive. -/
def Wanes (w u : World) : Prop :=
  ∀ i, u.Alive i → w.Alive i

theorem Wanes.refl (w : World) : w.Wanes w :=
  fun _ => id

theorem Wanes.trans (h : w.Wanes u) (h' : u.Wanes v) : w.Wanes v :=
  fun i halive => h i (h' i halive)

theorem Wanes.of_still (h : w.Still u) : w.Wanes u := by
  rintro i ⟨b, hb, hlive⟩
  obtain ⟨a, ha, hab⟩ := h.of_getElem? hb
  exact ⟨a, ha, hab.live hlive⟩

theorem Wanes.storeValue (w : World) (t : TwinId) (p : Place) (n : NativeValue) :
    w.Wanes (w.storeValue t p n) := by
  unfold World.storeValue
  split
  · exact .of_still ((Still.record w _).trans (.drop _ _))
  · refine Wanes.trans ?_ (.of_still (.drop _ _))
    rintro i ⟨b, hb, hlive⟩
    rw [getElem?_modifyTwin] at hb
    split at hb
    · obtain ⟨a, ha, rfl⟩ := Option.map_eq_some_iff.mp hb
      exact ⟨a, ha, hlive⟩
    · exact ⟨b, hb, hlive⟩

end World

/-- Whether code ends at once, brings no instance to life and writes to one segment of an
instance alone, and does so alike in worlds that agree on that as long as the instance and some
others stay alive. -/
structure Run.Confined {ε α : Type} (t : TwinId) (segment : Nat) (is : List TwinId) (m : Run ε α) :
    Prop where
  ends : ∀ w, ∃ e u, m w = .ended e u ∧ w.WritesIn t {segment} u ∧ w.Wanes u
  alike : ∀ {w₁ w₂ u₁ u₂ : World} {e₁ e₂ : Ending ε α}, w₁.Shares t {segment} w₂ →
    m w₁ = .ended e₁ u₁ → m w₂ = .ended e₂ u₂ → (∀ i ∈ t :: is, u₁.Alive i) →
    (∀ i ∈ t :: is, u₂.Alive i) → e₁ = e₂ ∧ u₁.Shares t {segment} u₂

namespace Run.Confined

variable {ε ε' α β : Type} {t : TwinId} {segment : Nat} {is : List TwinId} {m : Run ε α}

theorem again (e : Ending ε α) : (Run.again e).Confined t segment is where
  ends w := ⟨e, w, rfl, .of_still (.refl w), .refl w⟩
  alike := by
    rintro w₁ w₂ u₁ u₂ e₁ e₂ hshares ⟨⟩ ⟨⟩ - -
    exact ⟨rfl, hshares⟩

/-- What follows has to be confined only for the ends that code can come to. -/
theorem thenDo {held : List Token} {next : Ending ε α → Run ε' β} (hm : m.Confined t segment is)
    (hnext : ∀ e w u, m w = .ended e u → (next e).Confined t segment is) :
    (Run.thenDo held m next).Confined t segment is where
  ends w := by
    obtain ⟨e, v, hrun, hfirst, hearlier⟩ := hm.ends w
    obtain ⟨e', u, hrun', hlater, hsince⟩ := (hnext e w v hrun).ends v
    refine ⟨e', u, ?_, hfirst.again hlater, hearlier.trans hsince⟩
    change (m w).andThen held next = _
    rw [hrun]
    exact hrun'
  alike {w₁ w₂ u₁ u₂ e₁ e₂} hshares hrun₁ hrun₂ halive₁ halive₂ := by
    obtain ⟨e₁', v₁, hfirst₁, hlater₁⟩ := Course.ended_of_andThen hrun₁
    obtain ⟨e₂', v₂, hfirst₂, hlater₂⟩ := Course.ended_of_andThen hrun₂
    have hback : ∀ {e : Ending ε α} {e' : Ending ε' β} {w v u : World}, m w = .ended e v →
        next e v = .ended e' u → (∀ i ∈ t :: is, u.Alive i) → ∀ i ∈ t :: is, v.Alive i := by
      intro e e' w v u hfirst hrun halive i hi
      obtain ⟨_, _, hrun', -, hwanes⟩ := (hnext e w v hfirst).ends v
      cases hrun.symm.trans hrun'
      exact hwanes i (halive i hi)
    obtain ⟨rfl, hmiddle⟩ := hm.alike hshares hfirst₁ hfirst₂ (hback hfirst₁ hlater₁ halive₁)
      (hback hfirst₂ hlater₂ halive₂)
    exact (hnext e₁' w₁ v₁ hfirst₁).alike hmiddle hlater₁ hlater₂ halive₁ halive₂

theorem bind_of {k : α → Run ε β} (hm : m.Confined t segment is)
    (hk : ∀ a w u, m w = .ended (.value a) u → (k a).Confined t segment is) :
    (m >>= k).Confined t segment is :=
  hm.thenDo fun e w u hrun => by
    cases e with
    | value a => exact hk a w u hrun
    | raised f => exact again _
    | panicked text => exact again _

theorem bind {k : α → Run ε β} (hm : m.Confined t segment is)
    (hk : ∀ a, (k a).Confined t segment is) : (m >>= k).Confined t segment is :=
  hm.bind_of fun a _ _ _ => hk a

theorem act {a : Act α} (hwrites : ∀ w : World, w.WritesIn t {segment} (a w).2)
    (hwanes : ∀ w : World, w.Wanes (a w).2)
    (halike : ∀ {w₁ w₂ : World}, w₁.Shares t {segment} w₂ → (∀ i ∈ t :: is, (a w₁).2.Alive i) →
      (∀ i ∈ t :: is, (a w₂).2.Alive i) →
      (a w₁).1 = (a w₂).1 ∧ (a w₁).2.Shares t {segment} (a w₂).2) :
    (Run.act a : Run ε α).Confined t segment is where
  ends w := ⟨_, _, rfl, hwrites w, hwanes w⟩
  alike := by
    rintro w₁ w₂ u₁ u₂ e₁ e₂ hshares ⟨⟩ ⟨⟩ halive₁ halive₂
    obtain ⟨hsame, hend⟩ := halike hshares halive₁ halive₂
    exact ⟨congrArg Ending.value hsame, hend⟩

/-- Code that does no more than take and let go of handles. -/
theorem still {a : Act α} (hstill : ∀ w : World, w.Still (a w).2)
    (halike : ∀ {w₁ w₂ : World}, w₁.Shares t {segment} w₂ → (∀ i ∈ t :: is, (a w₁).2.Alive i) →
      (∀ i ∈ t :: is, (a w₂).2.Alive i) → (a w₁).1 = (a w₂).1) :
    (Run.act a : Run ε α).Confined t segment is :=
  act (fun w => .of_still (hstill w)) (fun w => .of_still (hstill w))
    fun {w₁ w₂} hshares halive₁ halive₂ =>
      ⟨halike hshares halive₁ halive₂, hshares.still (hstill w₁) (hstill w₂)⟩

theorem reads {g : World → α} (hg : ∀ w₁ w₂ : World, w₁.Shares t {segment} w₂ → g w₁ = g w₂) :
    (Run.reads g : Run ε α).Confined t segment is :=
  still (fun w => .refl w) fun {w₁ w₂} hshares _ _ => hg w₁ w₂ hshares

theorem modify {g : World → World} (hg : ∀ w : World, w.Still (g w)) :
    (Run.modify g : Run ε Unit).Confined t segment is :=
  still hg fun _ _ _ => rfl

theorem holding {hs : List Handle} (hm : m.Confined t segment is) :
    (Run.holding hs m).Confined t segment is :=
  hm.thenDo fun e _ _ _ => {
    ends w := ⟨e, _, rfl, .of_still (.drop w hs), .of_still (.drop w hs)⟩
    alike := by
      rintro w₁ w₂ u₁ u₂ e₁ e₂ hshares ⟨⟩ ⟨⟩ - -
      exact ⟨rfl, hshares.still (.drop w₁ hs) (.drop w₂ hs)⟩ }

theorem outcome (hm : m.Confined t segment is) :
    (Run.outcome m : Run ε' (Except ε α)).Confined t segment is :=
  hm.thenDo fun e _ _ _ => by cases e <;> exact again _

theorem ofOption {α : Type} (message : String) (o : Option α) :
    (NativeOp.ofOption message o).Confined t segment is := by
  cases o <;> exact again _

theorem ofExcept {ε α : Type} (r : Except ε α) : (Run.ofExcept r).Confined t segment is := by
  cases r <;> exact again _

end Run.Confined

section Bodies

open Run.Confined

variable {s : Site} {w₁ w₂ : World} {is : List TwinId}

theorem Site.segment_of_member {name : String} {p : Place} {decl : MemberDecl}
    (h : s.member? name = some (p, decl)) : p.segment = s.segment := by
  obtain ⟨index, -, hdecl⟩ := Option.bind_eq_some_iff.mp h
  obtain ⟨d, -, hfound⟩ := Option.bind_eq_some_iff.mp hdecl
  cases hfound
  rfl

theorem Site.set_confined (s : Site) (name : String) (v : NativeValue) :
    (Run.act (s.set name v) : Run Failure (Except Failure Unit)).Confined s.twin s.segment is := by
  unfold Site.set
  cases hmember : s.member? name with
  | none => exact still (fun w => .drop w _) fun _ _ _ => rfl
  | some found =>
      obtain ⟨p, decl⟩ := found
      have hp := Site.segment_of_member hmember
      have hstore : ∀ (w : World) (c : NativeValue), World.WritesIn s.twin {s.segment}
          (w.retainAll c.handles)
          (((w.retainAll c.handles).storeValue s.twin p c).drop v.handles) := fun w c =>
        (hp ▸ World.WritesIn.storeValue _ _ p c).again (.of_still (.drop _ _))
      refine act (fun w => ?_) (fun w => ?_) fun {w₁ w₂} hshares halive₁ halive₂ => ?_
      · dsimp only
        unfold World.writeMember
        split
        · exact .of_still (.drop w _)
        · rename_i c _
          exact (World.WritesIn.of_still (.retainAll w _)).again (hstore w c)
      · dsimp only
        unfold World.writeMember
        split
        · exact .of_still (.drop w _)
        · exact (World.Wanes.of_still (.retainAll w _)).trans
            ((World.Wanes.storeValue _ _ p _).trans (.of_still (.drop _ _)))
      · replace halive₁ := halive₁ s.twin List.mem_cons_self
        replace halive₂ := halive₂ s.twin List.mem_cons_self
        dsimp only at halive₁ halive₂ ⊢
        unfold World.writeMember at halive₁ halive₂ ⊢
        rw [hshares.census] at halive₁ ⊢
        cases hcoerce : v.coerce w₂.census decl.type with
        | none => exact ⟨rfl, hshares.still (.drop w₁ _) (.drop w₂ _)⟩
        | some c =>
            rw [hcoerce] at halive₁ halive₂
            have hkept := hshares.still (.retainAll w₁ c.handles) (.retainAll w₂ c.handles)
            have hstored := hkept.storeValue ((hstore w₁ c).alive halive₁)
              ((hstore w₂ c).alive halive₂) (p := p) hp c
            exact ⟨rfl, hstored.still (.drop _ _) (.drop _ _)⟩

theorem Site.get_confined (s : Site) (name : String) :
    (Run.act (s.get name) : Run Failure NativeValue).Confined s.twin s.segment is := by
  have hread : ∀ w : World, w.Still (s.get name w).2 := fun w => by
    unfold Site.get
    split
    · exact .refl w
    · exact .retainAll w _
  refine still hread fun {w₁ w₂} hshares halive₁ halive₂ => ?_
  have hback : ∀ w : World, w.Wanes (s.get name w).2 := fun w => .of_still (hread w)
  have hsegment := hshares.storage (hback w₁ _ (halive₁ _ List.mem_cons_self))
    (hback w₂ _ (halive₂ _ List.mem_cons_self)) rfl
  have hsame : ((s.member? name).bind fun found => (w₁.twin s.twin).valueAt? found.1)
      = (s.member? name).bind fun found => (w₂.twin s.twin).valueAt? found.1 := by
    cases hmember : s.member? name with
    | none => rfl
    | some found =>
        have hp : found.1.segment = s.segment := Site.segment_of_member hmember
        simp only [Option.bind_some, Twin.valueAt?, hp, hsegment]
  unfold Site.get
  rw [hsame]
  split <;> rfl

/-- A member of another instance that stays alive is read. -/
theorem NativeOp.field_confined {t j : TwinId} {segment : Nat} (hj : j ∈ is) (hne : j ≠ t)
    (name : String) : (NativeOp.result (World.getField j name)).Confined t segment is := by
  have hread : ∀ w : World, w.Still (World.getField j name w).2 := fun w => by
    unfold World.getField World.readMember
    split
    · exact .retainAll w _
    · exact .refl w
  refine (still hread fun {w₁ w₂} hshares halive₁ halive₂ => ?_).bind fun r =>
    Run.Confined.ofExcept r
  have hback : ∀ w : World, w.Wanes (World.getField j name w).2 := fun w => .of_still (hread w)
  exact (hshares.readMember hne (hback w₁ j (halive₁ j (List.mem_cons_of_mem _ hj)))
    (hback w₂ j (halive₂ j (List.mem_cons_of_mem _ hj))) name _).1

variable {f : NativeFrame}

theorem NativeOp.clone_confined {t : TwinId} {segment : Nat} (v : NativeValue) :
    (NativeOp.clone v).Confined t segment is :=
  (modify fun w => .retainAll w _).bind fun _ => again _

theorem NativeOp.expectObject_confined {t : TwinId} {segment : Nat}
    {operand : Run Failure NativeValue} (hoperand : operand.Confined t segment is) :
    (NativeOp.expectObject operand).Confined t segment is := by
  refine hoperand.bind fun v => ?_
  split
  · exact again _
  · exact (modify fun w => .drop w _).bind fun _ => again _

/-- The instance that an argument has to be is among the arguments. -/
theorem NativeOp.mem_of_expectObject {message : String} {i : Nat} {j : TwinId} {w u : World}
    (hrun : NativeOp.expectObject (NativeOp.ofOption message f.args[i]? >>= NativeOp.clone) w
      = .ended (.value j) u) : .object j ∈ f.args := by
  cases hargument : f.args[i]? with
  | none =>
      rw [hargument] at hrun
      cases hrun
  | some n =>
      rw [hargument] at hrun
      cases n with
      | object k =>
          cases hrun
          exact List.mem_of_getElem? hargument
      | _ => cases hrun

/-- Code in a row is confined if each part is. -/
theorem evalNativeSeq_confined (h : Host) {es : List NativeExpr} {t : TwinId} {segment : Nat}
    (hes : ∀ e ∈ es, (e.eval h f).Confined t segment is) (last : NativeValue) :
    (evalNativeSeq h f last es).Confined t segment is := by
  induction es generalizing last with
  | nil =>
      rw [evalNativeSeq]
      exact again _
  | cons e es ih =>
      rw [evalNativeSeq]
      exact (modify fun w => .drop w _).bind fun _ => (hes e List.mem_cons_self).bind fun v =>
        ih (fun e he => hes e (List.mem_cons_of_mem _ he)) v

/-- The instances among the arguments of native code. -/
def NativeFrame.instances (f : NativeFrame) : List TwinId :=
  (f.args.flatMap NativeValue.handles).map Handle.twin

theorem NativeFrame.mem_instances {i : TwinId} (h : .object i ∈ f.args) : i ∈ f.instances :=
  List.mem_map.mpr ⟨.native i, List.mem_flatMap.mpr ⟨_, h, List.mem_singleton_self _⟩, rfl⟩

variable {passed : Prop}

/-- Plain code of a constructor is confined to the segment that it fills. -/
theorem NativeExpr.Plain.confined (h : Host) (hs : f.site = some s)
    (hpassed : .object s.twin ∈ f.args → passed) {e : NativeExpr} (hplain : e.Plain passed) :
    (e.eval h f).Confined s.twin s.segment f.instances := by
  have hsite : NativeOp.site f = Pure.pure s := by rw [NativeOp.site, hs]; rfl
  induction hplain with
  | lit l => exact again _
  | arg i => exact (ofOption _ _).bind NativeOp.clone_confined
  | argCount => exact again _
  | seq hes ih => exact evalNativeSeq_confined h ih .void
  | cond hc ha hb ihc iha ihb =>
      rw [NativeExpr.eval]
      refine ihc.bind fun v => (modify fun w => .drop w _).bind fun _ => ?_
      split
      · exact iha
      · exact ihb
  | binary op ha hb iha ihb =>
      rw [NativeExpr.eval]
      exact iha.bind fun x => holding (ihb.bind fun y => holding (ofOption _ _))
  | fail failure => exact again _
  | attempt he ih =>
      rw [NativeExpr.eval]
      refine ih.outcome.bind fun r => ?_
      cases r with
      | ok v => exact again _
      | error failure => exact (modify fun w => .record w _).bind fun _ => again _
  | log text => exact (modify fun w => .record w _).bind fun _ => again _
  | typeName he ih =>
      rw [NativeExpr.eval]
      refine ih.bind fun v => holding (Run.Confined.bind (reads fun w₁ w₂ hshares => ?_)
        fun _ => again _)
      rw [hshares.census]
  | field hnot i name =>
      -- Of the instance itself another segment could be read, and that may differ.
      rw [NativeExpr.eval]
      refine (NativeOp.expectObject_confined ((ofOption _ _).bind
        NativeOp.clone_confined)).bind_of fun j w u hrun => holding ?_
      have hj : .object j ∈ f.args := NativeOp.mem_of_expectObject hrun
      refine NativeOp.field_confined (NativeFrame.mem_instances hj) ?_ name
      rintro rfl
      exact hnot (hpassed hj)
  | initField name he ih =>
      rw [NativeExpr.eval, hsite]
      refine ih.bind fun v => ?_
      change (Run.act (s.set name v) >>= fun r => Run.ofExcept r >>= fun _ =>
        Pure.pure NativeValue.void).Confined s.twin s.segment f.instances
      exact (Site.set_confined s name v).bind fun r =>
        (Run.Confined.ofExcept r).bind fun _ => again _
  | getInit name =>
      rw [NativeExpr.eval, hsite]
      exact Site.get_confined s name

/-- Plain bodies depend on nothing but their arguments and the segment that they fill. -/
theorem NativeExpr.Plain.confines (depth : Nat) {e : NativeExpr} (hplain : e.Plain passed) :
    (Host.nested .memo depth).Confines passed e := by
  intro s args w₁ w₂ hpassed h₁ h₂ hshares e₁ u₁ hrun₁
  cases depth with
  | zero => cases hrun₁
  | succ depth =>
      have hsafe := Host.nested_safe Dispatcher.memo.noSlot Dispatcher.memo.bare (depth + 1)
      have hconfined := hplain.confined (.nested .memo depth) (s := s)
        (f := { args, site := some s }) rfl hpassed
      have halive : ∀ {w u : World} {e' : Ending Failure NativeValue},
          w.Supports { args, site := some s } →
          (Host.nested .memo (depth + 1)).native { args, site := some s } e w = .ended e' u →
          ∀ i ∈ s.twin :: NativeFrame.instances { args, site := some s }, u.Alive i := by
        rintro w u e' ⟨R, hattained, hframe⟩ hrun
        obtain ⟨hleaves, -⟩ := (hsafe.native R w _ e hframe).at_once
          (hattained.cast (add_zero R)) hrun
        obtain ⟨G, hthere, -⟩ := hleaves.attained
        refine List.forall_mem_cons.mpr
          ⟨hthere.alive_of_lent (hframe.site s rfl).1.left, fun i hi => ?_⟩
        obtain ⟨x, hx, rfl⟩ := List.mem_map.mp hi
        exact hthere.alive_of_lent (hframe.args x hx).left
      obtain ⟨e₂, u₂, hrun₂, hwrites₂, -⟩ := hconfined.ends w₂
      obtain ⟨_, _, hrun, hwrites₁, -⟩ := hconfined.ends w₁
      cases hrun₁.symm.trans hrun
      obtain ⟨rfl, hend⟩ := hconfined.alike hshares hrun hrun₂ (halive h₁ hrun₁) (halive h₂ hrun₂)
      exact ⟨u₂, hrun₂, hwrites₁, hwrites₂, fun _ => hend⟩

end Bodies

end TwinObject
