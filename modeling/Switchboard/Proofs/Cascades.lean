import Mathlib.Data.List.Nodup
import Switchboard.Proofs.Faults
import Switchboard.Proofs.Guards
import Switchboard.Proofs.Walks

/-!
# Phases down the tree

`preorder` lists a component and all below it in the order in which a phase comes
to them. `Marched s t route`: from `s` to `t` every component went through the
states of its route, and the tree has the same branches. A phase whose hook runs
is a move to the transient state, the hook, and a move to the settled or the failed
state (`runSingle_enters`); a cascade runs until the first child fails
(`cascade_marches`). Others may do whatever leaves lifecycles and branches alone.

Between phases a tree is `Coherent`: all of it in one settled state, or failed at
the top with coherent trees below. While a cascade is on its way, the trees it has
not come to are `Pending`.
-/

namespace Switchboard.Container

open Activity
open Lifecycle (Phase State runPhase runSingle conclude needsInit onBoard)
open Lifecycle.Board (Walked Follows along along_of_mem along_of_not_mem)

/-- A component and all below it, down to a level, in the order in which a phase comes to them. -/
def preorder (children : ComponentId → List ComponentId) : Nat → ComponentId → List ComponentId
  | 0, c => [c]
  | n + 1, c => c :: (children c).flatMap (preorder children n)

theorem mem_preorder_self (children : ComponentId → List ComponentId) (n : Nat) (c : ComponentId) :
    c ∈ preorder children n c := by
  cases n <;> exact List.mem_cons_self

/-- What decides how a phase goes down from a component: its level and what is below it. -/
def Component.shape (p : Component) : Nat × List ComponentId :=
  (p.kind.height, Directory.values p.children)

theorem Component.shape_updateDesk (p : Component) (f : Desk → Desk) : (p.updateDesk f).shape = p.shape := by
  obtain ⟨kind, owner, children, alive⟩ := p
  cases kind <;> rfl

namespace Store

def shape (s : Store) (c : ComponentId) : Nat × List ComponentId := (s.component c).shape

/-- The level of a component, counted from the contexts. -/
def height (s : Store) (c : ComponentId) : Nat := (s.shape c).1

/-- The tree at a component. -/
def tree (s : Store) (c : ComponentId) : List ComponentId := preorder s.childIds (s.height c) c

theorem childIds_of_shape {s t : Store} (h : t.shape = s.shape) : t.childIds = s.childIds :=
  funext fun c => congrArg Prod.snd (congrFun h c)

theorem tree_of_shape {s t : Store} (h : t.shape = s.shape) (c : ComponentId) : t.tree c = s.tree c := by
  rw [tree, childIds_of_shape h, height, h, tree, height]

/-- The lifecycles and the branches of the tree are the same. -/
structure Aloof (s t : Store) : Prop where
  board : t.board = s.board
  shape : t.shape = s.shape

/-- Every component went through the states of its route, and the tree has the same branches. -/
structure Marched (s t : Store) (route : ComponentId → List State) : Prop where
  follows : s.board.Follows t.board route
  shape : t.shape = s.shape

/-- Only these components went anywhere. -/
def Within (cs : List ComponentId) (s t : Store) : Prop :=
  ∃ route, s.Marched t route ∧ ∀ c ∉ cs, route c = []

variable {s t u : Store} {c : ComponentId} {cs ds : List ComponentId}
  {route route' : ComponentId → List State} {path path' : List State}

theorem Aloof.refl (s : Store) : Aloof s s := ⟨rfl, rfl⟩

theorem Aloof.trans (s t u : Store) (h : Aloof s t) (k : Aloof t u) : Aloof s u :=
  ⟨k.board.trans h.board, k.shape.trans h.shape⟩

theorem UsesOnly.aloof {r : RegistrationId} (h : UsesOnly r s t) : Aloof s t := by
  refine ⟨h.board, ?_⟩
  funext c
  rw [shape, component, h.components]
  rfl

theorem Aloof.marched (h : Aloof s t) : s.Marched t fun _ => [] := ⟨h.board ▸ .refl _, h.shape⟩

theorem Marched.childIds (h : s.Marched t route) : t.childIds = s.childIds := childIds_of_shape h.shape

theorem Marched.trans (h : s.Marched t route) (k : t.Marched u route') :
    s.Marched u fun c => route c ++ route' c :=
  ⟨h.follows.trans k.follows, k.shape.trans h.shape⟩

theorem Marched.trans_along (h : s.Marched t (along cs path)) (k : t.Marched u (along cs path')) :
    s.Marched u (along cs (path ++ path')) :=
  ⟨h.follows.trans_along k.follows, k.shape.trans h.shape⟩

theorem Marched.state (h : s.Marched t route) (hc : (s.board.manager? c).isSome = true) :
    t.state c = (route c).getLastD (s.state c) := (h.follows.walked c).state hc

theorem Marched.state_eq (h : s.Marched t route) (hc : route c = []) : t.state c = s.state c := by
  have hw := h.follows.walked c
  rw [hc] at hw
  exact hw.state_eq

theorem Marched.placid (h : s.Marched t route) (hs : s.board.Placid cs) : t.board.Placid cs :=
  hs.follows h.follows

theorem Within.refl (s : Store) : s.Within cs s := ⟨_, (Aloof.refl s).marched, fun _ _ => rfl⟩

theorem Within.trans (h : s.Within cs t) (k : t.Within cs u) : s.Within cs u := by
  obtain ⟨route, hr, ho⟩ := h
  obtain ⟨route', hr', ho'⟩ := k
  exact ⟨_, hr.trans hr', fun c hc => by rw [ho c hc, ho' c hc, List.append_nil]⟩

theorem Within.subset (h : s.Within cs t) (hs : cs ⊆ ds) : s.Within ds t := by
  obtain ⟨route, hr, ho⟩ := h
  exact ⟨route, hr, fun c hc => ho c fun hm => hc (hs hm)⟩

theorem Marched.within (h : s.Marched t (along cs path)) : s.Within cs t :=
  ⟨_, h, fun _ hc => along_of_not_mem hc _⟩

theorem Within.walked (h : s.Within cs t) (hc : c ∉ cs) : s.board.Walked t.board c [] := by
  obtain ⟨route, hr, ho⟩ := h
  exact ho c hc ▸ hr.follows.walked c

theorem Within.state_eq (h : s.Within cs t) (hc : c ∉ cs) : t.state c = s.state c :=
  (h.walked hc).state_eq

theorem Within.shape (h : s.Within cs t) : t.shape = s.shape := by
  obtain ⟨route, hr, -⟩ := h
  exact hr.shape

theorem Within.childIds (h : s.Within cs t) : t.childIds = s.childIds := childIds_of_shape h.shape

theorem Within.placid (h : s.Within cs t) (hs : s.board.Placid ds) : t.board.Placid ds := by
  obtain ⟨route, hr, -⟩ := h
  exact hr.placid hs

/-- Where every component that may have gone somewhere went the same way. -/
theorem Within.marched (h : s.Within cs t) (hw : ∀ c ∈ cs, s.board.Walked t.board c path) :
    s.Marched t (along cs path) := by
  refine ⟨⟨fun c => ?_, ?_⟩, h.shape⟩
  · by_cases hc : c ∈ cs
    · rw [along_of_mem hc]
      exact hw c hc
    · rw [along_of_not_mem hc]
      exact h.walked hc
  · obtain ⟨route, hr, -⟩ := h
    exact hr.follows.exhausted

/-- What holds of a store as far as some components go. -/
def Local (cs : List ComponentId) (P : Store → Prop) : Prop :=
  ∀ ⦃s t ds⦄, s.Within ds t → (∀ c ∈ cs, c ∉ ds) → P s → P t

theorem Local.and {P Q : Store → Prop} (hp : Local cs P) (hq : Local cs Q) :
    Local cs fun s => P s ∧ Q s := fun _ _ _ hw hoff h => ⟨hp hw hoff h.1, hq hw hoff h.2⟩

end Store

/-! ## One component -/

section

variable {rely : Store → Store → Prop} {c : ComponentId} {cs : List ComponentId} {p : Phase} {s : Store}

theorem aloof_contextHook (c : ComponentId) (p : Phase) :
    Guarantees rely Store.Aloof (contextHook c p) := by
  refine guarantees_contextHook (fun r => (usesOnly_teardown r).mono fun _ _ => Store.UsesOnly.aloof)
    (fun s d f _ => ⟨rfl, ?_⟩) (fun r => (usesOnly_preload r).mono fun _ _ => Store.UsesOnly.aloof) c p
  funext e
  exact Store.updateComponent_keeps Component.shape ((s.component d).shape_updateDesk f) e

theorem contextHook_aloof (c : ComponentId) (p : Phase) (s : Store) :
    Ensures Store.Aloof (contextHook c p) (fun _ _ t => s.Aloof t) s :=
  (aloof_contextHook c p).frame Store.Aloof.refl Store.Aloof.trans (fun _ _ h => h) s

/-- A phase that does not move the component does nothing. -/
theorem runSingle_stays {hook : PhaseHook} (h : ¬ p.Enters (s.state c)) :
    Ensures rely (runSingle hook c p)
      (fun _ out t => out = p.verdict (s.name c) (s.state c) ∧ t = s) s := by
  generalize hv : p.verdict (s.name c) (s.state c) = v
  have hbegin : s.board.begin c p = (s.board, v.map fun _ => false) :=
    hv ▸ Lifecycle.Board.begin_of_not_enters h
  cases v with
  | ok | error =>
    simp only [runSingle, onBoard, ensures_bind, ensures_act, Lifecycle.HasBoard.board,
      Lifecycle.HasBoard.setBoard, hbegin, Except.map]
    exact ensures_pure.2 ⟨rfl, rfl⟩

/-- A phase that moves the component runs its hook in the transient state and then settles, or fails
the component if the hook failed. The hook leaves the component itself alone. -/
theorem runSingle_enters {hook : PhaseHook}
    {R : Store → List (Store × Store) → Except String Unit → Store → Prop}
    (hp : s.board.Placid [c]) (h : p.Enters (s.state c))
    (hhook : ∀ u, s.Marched u (along [c] [p.transient]) → Ensures rely hook (R u) u)
    (hR : ∀ u own o v, R u own o v → u.Within cs v) (hc : c ∉ cs) :
    Ensures rely (runSingle hook c p) (fun own out t => ∃ u own' o v, own' ⊆ own ∧
      s.Marched u (along [c] [p.transient]) ∧ R u own' o v ∧ match o with
        | .ok () => out = .ok () ∧ v.Marched t (along [c] [p.settled])
        | .error _ => (∃ f, out = .error f) ∧ v.Marched t (along [c] [.failed])) s := by
  have hself := List.mem_cons_self (a := c) (l := [])
  simp only [runSingle, onBoard, ensures_bind, ensures_act, Lifecycle.HasBoard.board,
    Lifecycle.HasBoard.setBoard, Lifecycle.Board.begin_of_enters h]
  have hu : s.Marched { s with board := s.board.commitWith .announce c p.transient } (along [c] [p.transient]) :=
    ⟨Lifecycle.Board.follows_commit hp.heeded (hp.observed c hself) _, rfl⟩
  refine (hhook _ hu).mono fun own o v hv => ?_
  have hv' := hR _ _ _ _ hv
  have hvp := hv'.placid (hu.placid hp)
  have hstate : v.state c = p.transient := by
    rw [hv'.state_eq hc, hu.state (hp.known c hself), Lifecycle.Board.along_self]
    rfl
  have hcommit : ∀ target, v.Marched { v with board := v.board.commitWith .announce c target } (along [c] [target]) :=
    fun target => ⟨Lifecycle.Board.follows_commit hvp.heeded (hvp.observed c hself) _, rfl⟩
  cases o with
  | ok =>
    simp only [conclude, onBoard, ensures_act, Lifecycle.HasBoard.board, Lifecycle.HasBoard.setBoard,
      Lifecycle.Board.request_settled hstate]
    exact ⟨_, own, .ok (), v, by simp, hu, hv, rfl, hcommit _⟩
  | error cause =>
    simp only [conclude, onBoard, ensures_act, Lifecycle.HasBoard.board, Lifecycle.HasBoard.setBoard,
      Lifecycle.Board.fail_of_transient hstate]
    exact ⟨_, own, .error cause, v, by simp, hu, hv, ⟨_, rfl⟩, hcommit _⟩

/-- A start that has nothing to initialize first, and every other phase. -/
theorem runPhase_single {hook : Phase → PhaseHook}
    {Q : List (Store × Store) → Except Lifecycle.Fault Unit → Store → Prop}
    (h : needsInit p (s.state c) = false) (k : Ensures rely (runSingle (hook p) c p) Q s) :
    Ensures rely (runPhase hook c p) (fun own out t => ∃ own' ⊆ own, Q own' out t) s := by
  refine ensures_bind.2 (ensures_act.2 ?_)
  rw [if_neg (by rw [Bool.not_eq_true]; exact h)]
  exact k.mono fun own out t hq => ⟨own, by simp, hq⟩

/-- A phase of a component goes down as many levels as there may be below it. -/
theorem ensures_phase {Q : List (Store × Store) → Except Lifecycle.Fault Unit → Store → Prop}
    (h : Ensures rely (runPhase (hookAt (s.height c) c) c p) Q s) : Ensures rely (phase c p) Q s :=
  ensures_bind.2 (ensures_get.2 h)

end

/-! ## Children -/

/-- A cascade of phases that each keep to their own components: either all are done, or one of them
fails, and those after it are as they were. -/
theorem cascade_marches {rely : Store → Store → Prop} {run : ComponentId → Work (Except Lifecycle.Fault Unit)}
    {below : ComponentId → List ComponentId} {Good Done Halted : ComponentId → Store → Prop}
    {Bad : List (Store × Store) → Prop} (hbad : ∀ own own', own ⊆ own' → Bad own → Bad own')
    (hgood : ∀ d, Store.Local (below d) (Good d)) (hdone : ∀ d, Store.Local (below d) (Done d))
    {ds : List ComponentId}
    (hrun : ∀ d ∈ ds, ∀ s, Good d s → Ensures rely (run d) (fun own out t => s.Within (below d) t ∧
      (out = .ok () ∧ Done d t ∨ (∃ f, out = .error f) ∧ Bad own ∧ Halted d t)) s)
    (hn : (ds.flatMap below).Nodup) {s : Store} (h : ∀ d ∈ ds, Good d s) :
    Ensures rely (cascade run ds) (fun own out t => s.Within (ds.flatMap below) t ∧
      (out = .ok () ∧ (∀ d ∈ ds, Done d t) ∨
        (∃ cause, out = .error cause) ∧ Bad own ∧
          ∃ d ∈ ds, Halted d t ∧ ∀ e ∈ ds, e ≠ d → Good e t ∨ Done e t)) s := by
  induction ds generalizing s with
  | nil => exact ensures_pure.2 ⟨.refl s, .inl ⟨rfl, List.forall_mem_nil _⟩⟩
  | cons d ds ih =>
    obtain ⟨hd, hds⟩ := List.forall_mem_cons.1 h
    obtain ⟨hrund, hrunds⟩ := List.forall_mem_cons.1 hrun
    rw [List.flatMap_cons, List.nodup_append] at hn
    obtain ⟨-, hrest, hapart⟩ := hn
    have hoff : ∀ e ∈ ds, ∀ c ∈ below e, c ∉ below d := fun e he c hc hcd =>
      hapart c hcd c (List.mem_flatMap.2 ⟨e, he, hc⟩) rfl
    refine ensures_bind.2 ((hrund s hd).mono ?_)
    rintro own out u ⟨hu, ho⟩
    have hleft : s.Within ((d :: ds).flatMap below) u :=
      hu.subset fun c hc => List.mem_flatMap.2 ⟨d, List.mem_cons_self, hc⟩
    have hkept : ∀ e ∈ ds, Good e u := fun e he => hgood e hu (hoff e he) (hds e he)
    rcases ho with ⟨rfl, hdone'⟩ | ⟨⟨f, rfl⟩, hb, hh⟩
    · refine (ih hrunds hrest hkept).mono ?_
      rintro own' out t ⟨ht, ho⟩
      have hdt : Done d t := hdone d ht (fun c hc hcd => hapart c hc c hcd rfl) hdone'
      have hright : u.Within ((d :: ds).flatMap below) t :=
        ht.subset fun c hc => List.mem_append_right _ hc
      refine ⟨hleft.trans hright, ?_⟩
      rcases ho with ⟨rfl, hall⟩ | ⟨hf, hb, e, he, hh, hothers⟩
      · exact .inl ⟨rfl, List.forall_mem_cons.2 ⟨hdt, hall⟩⟩
      · refine .inr ⟨hf, hbad _ _ (List.subset_append_right _ _) hb, e, List.mem_cons_of_mem d he, hh, ?_⟩
        exact List.forall_mem_cons.2 ⟨fun _ => .inr hdt, hothers⟩
    · refine ensures_pure.2 ⟨hleft, .inr ⟨⟨_, rfl⟩, hbad _ _ (by simp) hb, d, List.mem_cons_self, hh, ?_⟩⟩
      exact List.forall_mem_cons.2 ⟨fun hne => absurd rfl hne, fun e he _ => .inl (hkept e he)⟩

/-! ## Trees at rest -/

/-- All components are in one settled state, or the first has failed and the trees below it are
coherent. -/
inductive Coherent (children : ComponentId → List ComponentId) (state : ComponentId → State) :
    Nat → ComponentId → Prop where
  | uniform {n : Nat} {c : ComponentId} (st : State) (settled : st.isSettled = true)
      (all : ∀ d ∈ preorder children n c, state d = st) : Coherent children state n c
  | failed {n : Nat} {c : ComponentId} (self : state c = .failed)
      (below : ∀ d ∈ children c, Coherent children state n d) : Coherent children state (n + 1) c

theorem Coherent.congr {children : ComponentId → List ComponentId} {state state' : ComponentId → State}
    {n : Nat} {c : ComponentId} (h : Coherent children state n c)
    (hs : ∀ d ∈ preorder children n c, state' d = state d) : Coherent children state' n c := by
  induction h with
  | uniform st settled all => exact .uniform st settled fun d hd => (hs d hd).trans (all d hd)
  | failed self below ih =>
    refine .failed ((hs _ List.mem_cons_self).trans self) fun d hd => ih d hd fun e he => ?_
    exact hs e (List.mem_cons_of_mem _ (List.mem_flatMap.2 ⟨d, hd, he⟩))

/-- The tree of so many levels below a component is coherent. -/
def Store.IsCoherent (s : Store) (n : Nat) (c : ComponentId) : Prop := Coherent s.childIds s.state n c

/-- Its components are different ones, all there and observed. -/
structure Store.Ready (s : Store) (cs : List ComponentId) : Prop where
  nodup : cs.Nodup
  placid : s.board.Placid cs

theorem Store.Ready.within {s t : Store} {cs ds : List ComponentId} (h : s.Ready cs) (k : s.Within ds t) :
    t.Ready cs := ⟨h.nodup, k.placid h.placid⟩

/-- From `u` to `v` nobody at the component or below it has moved. -/
structure Store.Pending (u : Store) (children : ComponentId → List ComponentId) (n : Nat) (d : ComponentId)
    (v : Store) : Prop where
  childIds : v.childIds = children
  ready : v.Ready (preorder children n d)
  stayed : ∀ e ∈ preorder children n d, u.board.Walked v.board e []

section

variable {u v : Store} {children : ComponentId → List ComponentId} {n : Nat} {d : ComponentId}

theorem Store.Pending.state_eq (h : u.Pending children n d v) :
    ∀ e ∈ preorder children n d, v.state e = u.state e := fun e he => (h.stayed e he).state_eq

theorem Store.pending_of_mem {ds : List ComponentId} (hch : u.childIds = children)
    (hr : u.Ready (ds.flatMap (preorder children n))) (hd : d ∈ ds) : u.Pending children n d u := by
  have hsub : preorder children n d ⊆ ds.flatMap (preorder children n) := fun e he =>
    List.mem_flatMap.2 ⟨d, hd, he⟩
  exact ⟨hch, ⟨(List.nodup_flatMap.1 hr.nodup).1 d hd, hr.placid.subset hsub⟩, fun e _ => .refl _ e⟩

theorem Store.local_pending (u : Store) (children : ComponentId → List ComponentId) (n : Nat)
    (d : ComponentId) : Store.Local (preorder children n d) (u.Pending children n d) := by
  intro v w es hvw hoff h
  refine ⟨hvw.childIds.trans h.childIds, h.ready.within hvw, fun e he => ?_⟩
  exact (h.stayed e he).trans (hvw.walked (hoff e he))

theorem Store.local_walked (u : Store) (cs : List ComponentId) (path : List State) :
    Store.Local cs fun v => ∀ e ∈ cs, u.board.Walked v.board e path := by
  intro v w es hvw hoff hw e he
  simpa using (hw e he).trans (hvw.walked (hoff e he))

theorem Store.local_coherent (children : ComponentId → List ComponentId) (n : Nat) (ds : List ComponentId) :
    Store.Local (ds.flatMap (preorder children n)) fun v => ∀ d ∈ ds, Coherent children v.state n d :=
  fun _ _ _ hvw hoff hs d hd => (hs d hd).congr fun e he =>
    hvw.state_eq (hoff e (List.mem_flatMap.2 ⟨d, hd, he⟩))

end

/-! ## A tree in one state -/

section

variable {p : Phase} {st : State}

/-- Only what is settled is started. -/
theorem settled_of_start (he : Phase.Enters .start st) : st.isSettled = true := by
  cases st <;> first | rfl | exact absurd he (by decide)

/-- A phase moves a component when its hook leaves the component alone, and fails the component when its
hook fails. What the hook brought about below stands after it. -/
theorem runSingle_of_hook {s : Store} {c : ComponentId} {cs : List ComponentId} {hook : PhaseHook}
    {Bad : List (Store × Store) → Prop} {Done Left : Store → Prop} (hr : s.Ready (c :: cs))
    (he : p.Enters (s.state c)) (hbad : ∀ own own', own ⊆ own' → Bad own → Bad own')
    (hdone : Store.Local cs Done) (hleft : Store.Local cs Left)
    (hhook : ∀ u, s.Marched u (along [c] [p.transient]) → Ensures Store.Aloof hook (fun own o v =>
      u.Within cs v ∧ (o = .ok () ∧ Done v ∨ (∃ cause, o = .error cause) ∧ Bad own ∧ Left v)) u) :
    Ensures Store.Aloof (runSingle hook c p) (fun own out t => s.Within (c :: cs) t ∧
      (out = .ok () ∧ s.board.Walked t.board c [p.transient, p.settled] ∧ Done t ∨
        (∃ f, out = .error f) ∧ Bad own ∧ t.state c = .failed ∧ Left t)) s := by
  obtain ⟨hc, -⟩ := List.nodup_cons.1 hr.nodup
  have hself : [c] ⊆ c :: cs := List.cons_subset_cons c (List.nil_subset cs)
  have hapart : ∀ d ∈ cs, d ∉ [c] := fun d hd h => hc (List.mem_singleton.1 h ▸ hd)
  have hplacid := hr.placid.subset hself
  refine (runSingle_enters hplacid he hhook (fun u own o v h => h.1) hc).mono ?_
  rintro own out t ⟨u, own', o, v, hsub, hu, ⟨hv, ho⟩, hend⟩
  have hsv : s.Within (c :: cs) v :=
    (hu.within.subset hself).trans (hv.subset (List.subset_cons_self c cs))
  rcases ho with ⟨rfl, hd⟩ | ⟨⟨cause, rfl⟩, hb, hl⟩
  · obtain ⟨rfl, ht⟩ := hend
    refine ⟨hsv.trans (ht.within.subset hself), .inl ⟨rfl, ?_, hdone ht.within hapart hd⟩⟩
    have hw := ((hu.follows.walked c).trans (hv.walked hc)).trans (ht.follows.walked c)
    rwa [Lifecycle.Board.along_self, Lifecycle.Board.along_self] at hw
  · obtain ⟨hf, ht⟩ := hend
    refine ⟨hsv.trans (ht.within.subset hself), .inr ⟨hf, hbad _ _ hsub hb, ?_, hleft ht.within hapart hl⟩⟩
    rw [ht.state ((hsv.placid hplacid).known c List.mem_cons_self), Lifecycle.Board.along_self]
    rfl

/-- The trees below a component in turn, when each goes the same way. -/
theorem cascade_marches_together {u : Store} {children : ComponentId → List ComponentId} {n : Nat}
    {ds : List ComponentId} (hch : u.childIds = children) (hr : u.Ready (ds.flatMap (preorder children n)))
    (hst : ∀ d ∈ ds, ∀ e ∈ preorder children n d, u.state e = st) (he : p.Enters st)
    (ih : ∀ {v : Store} {d : ComponentId}, v.Ready (preorder v.childIds n d) →
      (∀ e ∈ preorder v.childIds n d, v.state e = st) →
      Ensures Store.Aloof (runSingle (hookAt n d p) d p) (fun own out t =>
        out = .ok () ∧ v.Marched t (along (preorder v.childIds n d) [p.transient, p.settled]) ∨
        (∃ f, out = .error f) ∧ (p = .start ∧ Fails own) ∧
          v.Within (preorder v.childIds n d) t ∧ t.state d = .failed ∧ t.IsCoherent n d) v) :
    Ensures Store.Aloof (cascade (fun d => runPhase (hookAt n d) d p) ds) (fun own o v =>
      u.Within (ds.flatMap (preorder children n)) v ∧
        (o = .ok () ∧ (∀ e ∈ ds.flatMap (preorder children n),
          u.board.Walked v.board e [p.transient, p.settled]) ∨
        (∃ cause, o = .error cause) ∧ (p = .start ∧ Fails own) ∧
          ∀ d ∈ ds, Coherent children v.state n d)) u := by
  have hrun : ∀ d ∈ ds, ∀ v, u.Pending children n d v →
      Ensures Store.Aloof (runPhase (hookAt n d) d p) (fun own out t => v.Within (preorder children n d) t ∧
        (out = .ok () ∧ (∀ e ∈ preorder children n d, u.board.Walked t.board e [p.transient, p.settled]) ∨
          (∃ f, out = .error f) ∧ (p = .start ∧ Fails own) ∧ Coherent children t.state n d)) v := by
    intro d hd v hv
    have hstate : ∀ e ∈ preorder children n d, v.state e = st := fun e he =>
      (hv.state_eq e he).trans (hst d hd e he)
    have hself : v.state d = st := hstate d (mem_preorder_self children n d)
    obtain rfl := hv.childIds
    refine (runPhase_single (hself.symm ▸ he.no_init) (ih hv.ready hstate)).mono ?_
    rintro own out t ⟨own', hsub, ⟨rfl, hm⟩ | ⟨hf, hb, hwith, -, hs⟩⟩
    · refine ⟨hm.within, .inl ⟨rfl, fun e he => ?_⟩⟩
      have hw := (hv.stayed e he).trans (hm.follows.walked e)
      rwa [along_of_mem he] at hw
    · exact ⟨hwith, .inr ⟨hf, ⟨hb.1, hb.2.mono hsub⟩, hwith.childIds ▸ hs⟩⟩
  refine (cascade_marches (fun _ _ hs h => ⟨h.1, h.2.mono hs⟩) (u.local_pending children n)
    (fun d => u.local_walked (preorder children n d) _) hrun hr.nodup
    fun d hd => Store.pending_of_mem hch hr hd).mono ?_
  rintro own o v ⟨hv, ⟨rfl, hall⟩ | ⟨hf, hb, d, hd, hs, hothers⟩⟩
  · refine ⟨hv, .inl ⟨rfl, fun e he => ?_⟩⟩
    obtain ⟨d, hd, he⟩ := List.mem_flatMap.1 he
    exact hall d hd e he
  · refine ⟨hv, .inr ⟨hf, hb, fun e he => ?_⟩⟩
    by_cases hed : e = d
    · exact hed ▸ hs
    -- Whoever was not reached is in the state that all were in, and whoever is done in the one after it.
    rcases hothers e he hed with hwait | hdone
    · refine .uniform st (settled_of_start (hb.1 ▸ ‹p.Enters st›)) fun x hx => ?_
      exact (hwait.state_eq x hx).trans (hst e he x hx)
    · refine .uniform p.settled (by cases p <;> rfl) fun x hx => ?_
      exact (hdone x hx).state (hr.placid.known x (List.mem_flatMap.2 ⟨e, he, hx⟩))

/-- A phase that moves a component moves a whole tree whose components are in its state, unless a
context below fails to prepare its handlers. -/
theorem runSingle_marches {s : Store} {n : Nat} {c : ComponentId} (hr : s.Ready (preorder s.childIds n c))
    (hst : ∀ d ∈ preorder s.childIds n c, s.state d = st) (he : p.Enters st) :
    Ensures Store.Aloof (runSingle (hookAt n c p) c p) (fun own out t =>
      out = .ok () ∧ s.Marched t (along (preorder s.childIds n c) [p.transient, p.settled]) ∨
      (∃ f, out = .error f) ∧ (p = .start ∧ Fails own) ∧
        s.Within (preorder s.childIds n c) t ∧ t.state c = .failed ∧ t.IsCoherent n c) s := by
  have hbad : ∀ own own' : List (Store × Store), own ⊆ own' → p = .start ∧ Fails own →
      p = .start ∧ Fails own' := fun _ _ hs h => ⟨h.1, h.2.mono hs⟩
  induction n generalizing s c with
  | zero =>
    have hc : p.Enters (s.state c) := (hst c List.mem_cons_self).symm ▸ he
    refine (runSingle_of_hook hr hc hbad (s.local_walked [] [])
      (Store.local_coherent s.childIds 0 []) fun u _ => ?_).mono ?_
    · refine ((contextHook_aloof c p u).and (contextHook_blames c p u)).mono ?_
      rintro own o v ⟨hv, ho⟩
      refine ⟨⟨_, hv.marched, fun _ _ => rfl⟩, ?_⟩
      cases o with
      | ok => exact .inl ⟨rfl, List.forall_mem_nil _⟩
      | error cause => exact .inr ⟨⟨cause, rfl⟩, ho cause rfl, List.forall_mem_nil _⟩
    · rintro own out t ⟨ht, ⟨rfl, hw, -⟩ | ⟨hf, hb, hc, -⟩⟩
      · exact .inl ⟨rfl, ht.marched fun d hd => List.mem_singleton.1 hd ▸ hw⟩
      · exact .inr ⟨hf, hb, ht, hc, .uniform .failed rfl fun d hd => List.mem_singleton.1 hd ▸ hc⟩
  | succ n ih =>
    have hc : p.Enters (s.state c) := (hst c List.mem_cons_self).symm ▸ he
    obtain ⟨hcn, hbelow⟩ := List.nodup_cons.1 hr.nodup
    have hoff : ∀ d ∈ (s.childIds c).flatMap (preorder s.childIds n), d ∉ [c] :=
      fun d hd h => hcn (List.mem_singleton.1 h ▸ hd)
    refine (runSingle_of_hook hr hc hbad (s.local_walked _ [p.transient, p.settled])
      (Store.local_coherent s.childIds n (s.childIds c)) fun u hu => ?_).mono ?_
    · have hstate : ∀ d ∈ s.childIds c, ∀ e ∈ preorder s.childIds n d, u.state e = st := by
        intro d hd e he
        have hin : e ∈ (s.childIds c).flatMap (preorder s.childIds n) := List.mem_flatMap.2 ⟨d, hd, he⟩
        rw [hu.state_eq (along_of_not_mem (hoff e hin) _)]
        exact hst e (List.mem_cons_of_mem c hin)
      have hru : u.Ready ((s.childIds c).flatMap (preorder s.childIds n)) :=
        ⟨hbelow, (hu.placid hr.placid).subset (List.subset_cons_self c _)⟩
      refine ensures_bind.2 (ensures_get.2 ?_)
      rw [hu.childIds]
      refine (cascade_marches_together hu.childIds hru hstate he ih).mono ?_
      rintro own o v ⟨hv, ⟨ho, hall⟩ | h⟩
      · exact ⟨hv, .inl ⟨ho, fun d hd => (hu.within.walked (hoff d hd)).trans (hall d hd)⟩⟩
      · exact ⟨hv, .inr h⟩
    · rintro own out t ⟨ht, ⟨rfl, hw, hall⟩ | ⟨hf, hb, hc, hs⟩⟩
      · exact .inl ⟨rfl, ht.marched (List.forall_mem_cons.2 ⟨hw, hall⟩)⟩
      · exact .inr ⟨hf, hb, ht, hc, .failed hc (ht.childIds ▸ hs)⟩

end

end Switchboard.Container
