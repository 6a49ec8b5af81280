import Switchboard.Proofs.Housing
import Switchboard.Proofs.Uniformity

/-!
# Shutting a tree down from its root

A start that fails part of the way leaves its root failed, with what it had started
below still started. From there a destruction is the only phase that moves the root,
and it stops at whatever is started. So a tree can be shut down from its root unless
the root has failed and something below is started, and then it never can.
-/

namespace Switchboard.Container

open Activity
open Lifecycle (Phase State runPhase runSingle needsInit)
open Lifecycle.Board (along along_of_mem along_of_not_mem)

/-! ## Destroying a coherent tree -/

/-- Nothing was started among the components, and all of them are destroyed. -/
def Store.Destroyed (s t : Store) (cs : List ComponentId) : Prop :=
  ∀ d ∈ cs, s.state d ≠ .started ∧ t.state d = .destroyed

/-- Something was started among the components, and what was is still. -/
structure Store.Barred (s t : Store) (cs : List ComponentId) : Prop where
  started : ∃ d ∈ cs, s.state d = .started
  still : ∀ d ∈ cs, s.state d = .started → t.state d = .started

/-- What the destruction of a tree comes to: all of it is destroyed, unless something in it is
started. That stays as it is, the state of the first is what it was, and what is left is coherent. -/
def Store.Wrecked (s : Store) (n : Nat) (c : ComponentId) (out : Except Lifecycle.Fault Unit) (t : Store) :
    Prop :=
  s.Within (preorder s.childIds n c) t ∧
    (out = .ok () ∧ s.Destroyed t (preorder s.childIds n c) ∨
      (∃ f, out = .error f) ∧ s.Barred t (preorder s.childIds n c) ∧ t.IsCoherent n c ∧ t.state c = s.state c)

section

variable {s t u : Store} {c : ComponentId} {n : Nat} {st : State}

theorem Store.Destroyed.congr {cs : List ComponentId} (h : u.Destroyed t cs)
    (hs : ∀ d ∈ cs, u.state d = s.state d) : s.Destroyed t cs :=
  fun d hd => ⟨hs d hd ▸ (h d hd).1, (h d hd).2⟩

theorem Store.Barred.congr {cs : List ComponentId} (h : u.Barred t cs)
    (hs : ∀ d ∈ cs, u.state d = s.state d) : s.Barred t cs := by
  obtain ⟨d, hd, hstarted⟩ := h.started
  exact ⟨⟨d, hd, hs d hd ▸ hstarted⟩, fun e he hes => h.still e he ((hs e he).trans hes)⟩

theorem Store.local_destroyed (s : Store) (cs : List ComponentId) :
    Store.Local cs fun v => s.Destroyed v cs :=
  fun _ _ _ hvw hoff h d hd => ⟨(h d hd).1, (hvw.state_eq (hoff d hd)).trans (h d hd).2⟩

theorem Store.local_barred (s : Store) (cs : List ComponentId) : Store.Local cs fun v => s.Barred v cs :=
  fun _ _ _ hvw hoff h =>
    ⟨h.started, fun d hd hs => (hvw.state_eq (hoff d hd)).trans (h.still d hd hs)⟩

theorem destroy_uniform (hr : s.Ready (preorder s.childIds n c)) (hsettled : st.isSettled = true)
    (hst : ∀ d ∈ preorder s.childIds n c, s.state d = st) :
    Ensures Store.Aloof (runSingle (hookAt n c .destroy) c .destroy) (fun _ => s.Wrecked n c) s := by
  have hself := hst c (mem_preorder_self _ n c)
  refine (runSingle_uniform hr hst).mono ?_
  rintro own out t (⟨ho, ht⟩ | ⟨-, ⟨hp, -⟩, -⟩)
  · refine ⟨ht.within, ?_⟩
    have hstate : ∀ d ∈ preorder s.childIds n c, t.state d = (Phase.destroy.steps st).getLastD st := by
      intro d hd
      rw [ht.state (hr.placid.known d hd), along_of_mem hd, hst d hd]
    by_cases hstarted : st = .started
    · subst hstarted
      refine .inr ⟨⟨_, ho⟩, ⟨⟨c, mem_preorder_self _ n c, hself⟩, fun d hd _ => hstate d hd⟩, ?_, ?_⟩
      · exact .uniform .started rfl fun d hd => hstate d (ht.childIds ▸ hd)
      · exact (hstate c (mem_preorder_self _ n c)).trans hself.symm
    · have hdone : (Phase.destroy.steps st).getLastD st = .destroyed ∧
          Phase.destroy.verdict (s.name c) st = .ok () := by
        cases st <;> first | exact ⟨rfl, rfl⟩ | exact absurd hsettled (by decide) | exact absurd rfl hstarted
      exact .inl ⟨ho.trans hdone.2, fun d hd => ⟨hst d hd ▸ hstarted, (hstate d hd).trans hdone.1⟩⟩
  · cases hp

/-- Coherent trees in turn are destroyed up to the first with something started. -/
theorem cascade_wrecks {children : ComponentId → List ComponentId} {ds : List ComponentId}
    (hch : u.childIds = children) (hr : u.Ready (ds.flatMap (preorder children n)))
    (hs : ∀ d ∈ ds, Coherent children u.state n d)
    (ih : ∀ {v : Store} {d : ComponentId}, v.Ready (preorder v.childIds n d) → v.IsCoherent n d →
      Ensures Store.Aloof (runSingle (hookAt n d .destroy) d .destroy) (fun _ => v.Wrecked n d) v) :
    Ensures Store.Aloof (cascade (fun d => runPhase (hookAt n d) d .destroy) ds) (fun _ o v =>
      u.Within (ds.flatMap (preorder children n)) v ∧
        (o = .ok () ∧ u.Destroyed v (ds.flatMap (preorder children n)) ∨
          (∃ cause, o = .error cause) ∧ True ∧ u.Barred v (ds.flatMap (preorder children n)) ∧
            ∀ d ∈ ds, Coherent children v.state n d)) u := by
  have hrun : ∀ d ∈ ds, ∀ v, u.Pending children n d v →
      Ensures Store.Aloof (runPhase (hookAt n d) d .destroy) (fun _ out t =>
        v.Within (preorder children n d) t ∧ (out = .ok () ∧ u.Destroyed t (preorder children n d) ∨
          (∃ f, out = .error f) ∧ True ∧
            u.Barred t (preorder children n d) ∧ Coherent children t.state n d)) v := by
    intro d hd v hv
    have hcoherent : Coherent children v.state n d := (hs d hd).congr hv.state_eq
    have hstate := hv.state_eq
    obtain rfl := hv.childIds
    refine (runPhase_single rfl (ih hv.ready hcoherent)).mono ?_
    rintro own out t ⟨-, -, hw, ⟨ho, hall⟩ | ⟨hf, hb, hafter, -⟩⟩
    · exact ⟨hw, .inl ⟨ho, hall.congr hstate⟩⟩
    · exact ⟨hw, .inr ⟨hf, trivial, hb.congr hstate, hw.childIds ▸ hafter⟩⟩
  refine (cascade_marches (fun _ _ _ _ => trivial) (u.local_pending children n)
    (fun d => u.local_destroyed (preorder children n d)) hrun hr.nodup
    fun d hd => Store.pending_of_mem hch hr hd).mono ?_
  rintro own o v ⟨hv, ⟨rfl, hall⟩ | ⟨hf, -, d, hd, ⟨hb, hcoherent⟩, hothers⟩⟩
  · refine ⟨hv, .inl ⟨rfl, fun e he => ?_⟩⟩
    obtain ⟨d, hd, he⟩ := List.mem_flatMap.1 he
    exact hall d hd e he
  · obtain ⟨⟨e, he, hstarted⟩, hstill⟩ := hb
    have hbar : u.Barred v (ds.flatMap (preorder children n)) := by
      refine ⟨⟨e, List.mem_flatMap.2 ⟨d, hd, he⟩, hstarted⟩, fun x hx hxs => ?_⟩
      obtain ⟨y, hy, hxy⟩ := List.mem_flatMap.1 hx
      by_cases hyd : y = d
      · exact hstill x (hyd ▸ hxy) hxs
      rcases hothers y hy hyd with hwait | hdone
      · exact (hwait.state_eq x hxy).trans hxs
      · exact absurd hxs (hdone x hxy).1
    refine ⟨hv, .inr ⟨hf, trivial, hbar, fun x hx => ?_⟩⟩
    by_cases hxd : x = d
    · exact hxd ▸ hcoherent
    rcases hothers x hx hxd with hwait | hdone
    · exact (hs x hx).congr hwait.state_eq
    · exact .uniform .destroyed rfl fun y hy => (hdone y hy).2

/-- To destroy a coherent tree destroys all of it, unless something in it is started; that stays as it
is, and so does the state of the first. -/
theorem destroy_coherent (hr : s.Ready (preorder s.childIds n c)) (hs : s.IsCoherent n c) :
    Ensures Store.Aloof (runSingle (hookAt n c .destroy) c .destroy) (fun _ => s.Wrecked n c) s := by
  induction n generalizing s c with
  | zero =>
    cases hs with
    | uniform st settled all => exact destroy_uniform hr settled all
  | succ n ih =>
    cases hs with
    | uniform st settled all => exact destroy_uniform hr settled all
    | failed self below =>
      obtain ⟨hc, hbelow⟩ := List.nodup_cons.1 hr.nodup
      have hrest := List.subset_cons_self c ((s.childIds c).flatMap (preorder s.childIds n))
      have he : Phase.destroy.Enters (s.state c) := self ▸ by decide
      have hoff : ∀ d ∈ (s.childIds c).flatMap (preorder s.childIds n), d ∉ [c] :=
        fun d hd h => hc (List.mem_singleton.1 h ▸ hd)
      refine (runSingle_of_hook hr he (fun _ _ _ _ => trivial) (s.local_destroyed _)
        ((s.local_barred _).and (Store.local_coherent s.childIds n (s.childIds c))) fun u hu => ?_).mono ?_
      · have hsu : ∀ d ∈ (s.childIds c).flatMap (preorder s.childIds n), u.state d = s.state d :=
          fun d hd => hu.within.state_eq (hoff d hd)
        have hru : u.Ready ((s.childIds c).flatMap (preorder s.childIds n)) :=
          ⟨hbelow, (hu.placid hr.placid).subset hrest⟩
        have hunder : ∀ d ∈ s.childIds c, Coherent s.childIds u.state n d := fun d hd =>
          (below d hd).congr fun e he => hsu e (List.mem_flatMap.2 ⟨d, hd, he⟩)
        refine ensures_bind.2 (ensures_get.2 ?_)
        rw [hu.childIds]
        refine (cascade_wrecks hu.childIds hru hunder ih).mono ?_
        rintro own o v ⟨hv, ⟨ho, hall⟩ | ⟨hf, hb, hbar, hafter⟩⟩
        · exact ⟨hv, .inl ⟨ho, hall.congr hsu⟩⟩
        · exact ⟨hv, .inr ⟨hf, hb, hbar.congr hsu, hafter⟩⟩
      · rintro own out t ⟨ht, h⟩
        obtain ⟨ho, hw, hall⟩ | ⟨hf, -, hfailed, ⟨⟨e, he, hstarted⟩, hstill⟩, hafter⟩ := h
        · refine ⟨ht, .inl ⟨ho, List.forall_mem_cons.2 ⟨⟨self ▸ by decide, ?_⟩, hall⟩⟩⟩
          exact hw.state (hr.placid.known c List.mem_cons_self)
        · refine ⟨ht, .inr ⟨hf, ⟨⟨e, hrest he, hstarted⟩, ?_⟩, .failed hfailed (ht.childIds ▸ hafter),
            hfailed.trans self.symm⟩⟩
          exact List.forall_mem_cons.2 ⟨fun hs => absurd (self.symm.trans hs) (by decide), hstill⟩

/-- Each phase of a coherent tree leaves it coherent. Under a failed root nothing that is started is ever
stopped. -/
theorem phase_coherent {p : Phase} (hr : s.Ready (s.tree c)) (hs : s.IsCoherent (s.height c) c) :
    Ensures Store.Aloof (phase c p) (fun _ _ t => s.Within (s.tree c) t ∧ t.IsCoherent (s.height c) c ∧
      (s.state c = .failed → ∀ d ∈ s.tree c, s.state d = .started →
        t.state c = .failed ∧ t.state d = .started)) s := by
  have huniform : ∀ {st}, st.isSettled = true → (∀ d ∈ s.tree c, s.state d = st) →
      Ensures Store.Aloof (phase c p) (fun _ _ t => s.Within (s.tree c) t ∧ t.IsCoherent (s.height c) c ∧
        (s.state c = .failed → ∀ d ∈ s.tree c, s.state d = .started →
          t.state c = .failed ∧ t.state d = .started)) s := by
    intro st hsettled hst
    have hself := hst c (mem_preorder_self _ _ c)
    have hnever : s.state c = .failed → ∀ d ∈ s.tree c, s.state d = .started → False := by
      intro hf d hd hd'
      rw [hself, ← hst d hd, hd'] at hf
      cases hf
    refine (phase_uniform hr hst).mono fun own out t h => ?_
    rcases h with ⟨-, ht⟩ | ⟨-, -, hw, -, hcoherent⟩
    · have hroute : ((p.route st).getLastD st).isSettled = true := by
        cases p <;> cases st <;> first | rfl | exact absurd hsettled (by decide)
      refine ⟨ht.within, .uniform _ hroute fun d hd => ?_, fun hf d hd hd' => (hnever hf d hd hd').elim⟩
      rw [ht.childIds] at hd
      change d ∈ s.tree c at hd
      rw [ht.state (hr.placid.known d hd), along_of_mem hd, hst d hd]
    · exact ⟨hw, hcoherent, fun hf d hd hd' => (hnever hf d hd hd').elim⟩
  by_cases hp : p = .destroy
  · subst hp
    refine ensures_phase ((runPhase_single rfl (destroy_coherent hr hs)).mono ?_)
    rintro own out t ⟨-, -, hw, ⟨-, hall⟩ | ⟨-, hb, hcoherent, hsame⟩⟩
    · refine ⟨hw, .uniform .destroyed rfl fun d hd => (hall d (hw.childIds ▸ hd)).2, ?_⟩
      exact fun _ d hd hd' => absurd hd' (hall d hd).1
    · exact ⟨hw, hcoherent, fun hf d hd hd' => ⟨hsame.trans hf, hb.still d hd hd'⟩⟩
  · generalize hn : s.height c = n at hs huniform ⊢
    cases hs with
    | uniform st settled all => exact huniform settled (by rw [Store.tree, hn]; exact all)
    | failed self below =>
      have he : ¬ p.Enters (s.state c) := by
        rw [self]
        cases p <;> first | decide | exact absurd rfl hp
      have hi : needsInit p (s.state c) = false := by
        rw [self]
        cases p <;> rfl
      refine ensures_bind.2 (ensures_get.2 ((runPhase_single hi (runSingle_stays he)).mono ?_))
      rintro own out t ⟨-, -, -, rfl⟩
      exact ⟨.refl t, .failed self below, fun hf d _ hd => ⟨hf, hd⟩⟩

end

/-! ## From a fresh tree on -/

/-- A tree of new components, each one level above what is below it, with registrations of the policies
of their classes. Nothing has been built yet, and nobody is at work. -/
structure Store.Fresh (s : Store) (c : ComponentId) : Prop where
  ready : s.Ready (s.tree c)
  levels : ∀ d ∈ s.tree c, ∀ e ∈ s.childIds d, s.height e + 1 = s.height d
  new : ∀ d ∈ s.tree c, s.state d = .new
  rest : s.AtRest
  registered : ∀ d ∈ s.tree c, ∀ r, s.OnDesk d r → r < s.registrations.size ∧
    (s.registration r).instancing = (s.classOf (s.registration r).cls).instancing
  vacant : s.Vacant
  instances : s.instances = {}
  acts : s.acts = []

/-- What holds of a tree between any two phases of its root. -/
structure Store.Sane (c : ComponentId) (s : Store) : Prop where
  ready : s.Ready (s.tree c)
  coherent : s.IsCoherent (s.height c) c
  rest : s.AtRest
  layered : Layered s.shape (s.tree c)
  housed : s.Housed s.shape (s.tree c)

section

variable {s t u : Store} {c : ComponentId} {calls : List (Phase × Except Lifecycle.Fault Unit)}
  {own : List (Store × Store)}

/-- With every child one level down, the children of a tree are in it. -/
theorem layered_of_levels {children : ComponentId → List ComponentId} {height : ComponentId → Nat} {n : Nat}
    {c : ComponentId} (hc : height c = n)
    (h : ∀ d ∈ preorder children n c, ∀ e ∈ children d, height e + 1 = height d) :
    ∀ d ∈ preorder children n c, ∀ e ∈ children d, e ∈ preorder children n c := by
  induction n generalizing c with
  | zero =>
    intro d hd e he
    have hlevel := h d hd e he
    rw [List.mem_singleton.1 hd, hc] at hlevel
    cases hlevel
  | succ n ih =>
    intro d hd e he
    have hbelow : ∀ x ∈ children c, preorder children n x ⊆ preorder children (n + 1) c :=
      fun x hx y hy => List.mem_cons_of_mem c (List.mem_flatMap.2 ⟨x, hx, hy⟩)
    rcases List.mem_cons.1 hd with rfl | hd
    · exact hbelow e he (mem_preorder_self children n e)
    · obtain ⟨x, hx, hdx⟩ := List.mem_flatMap.1 hd
      have hxn : height x = n := Nat.succ.inj ((h c List.mem_cons_self x hx).trans hc)
      exact hbelow x hx (ih hxn (fun y hy => h y (hbelow x hx hy)) d hdx e he)

theorem Store.Fresh.sane (h : s.Fresh c) : s.Sane c := by
  have hnone : ∀ i, s.instance? i = none := fun i => by simp [Store.instance?, h.instances, Roster.get?]
  have hno : ∀ i, ¬ s.IsStateless i := fun i hi => Store.instance?_ne_none hi (hnone i)
  have hlayered : Layered s.shape (s.tree c) := fun d hd e he =>
    ⟨layered_of_levels rfl h.levels d hd e he, h.levels d hd e he⟩
  refine ⟨h.ready, .uniform .new rfl h.new, h.rest, hlayered, rfl, h.ready.placid, ⟨?_, ?_⟩, ?_⟩
  · intro d hd r hr
    obtain ⟨hlt, hpolicy⟩ := h.registered d hd r hr
    exact ⟨hlt, ⟨d, hd, hr⟩, hpolicy⟩
  · refine ⟨fun i hi => absurd hi (hno i), fun r i hr => ?_, by simp, fun i m _ => ?_⟩
    · rw [h.vacant r] at hr
      cases hr
    · simp [Store.marks, h.acts]
  · intro d hd hs
    rw [h.new d hd] at hs
    cases hs

theorem phase_sane (h : s.Sane c) (p : Phase) : Ensures Eq (phase c p) (fun _ _ t =>
    t.Sane c ∧ t.shape = s.shape ∧ (s.state c = .failed → ∀ d ∈ s.tree c, s.state d = .started →
      t.state c = .failed ∧ t.state d = .started)) s := by
  have hcoherent := (phase_coherent (p := p) h.ready h.coherent).alone Store.Aloof.refl
  have hhoused := phase_housed h.layered h.housed (mem_preorder_self _ _ c) p
  intro own out t hr
  obtain ⟨hw, hs, hstuck⟩ := hcoherent own out t hr
  have htree := Store.tree_of_shape hw.shape c
  have hheight : t.height c = s.height c := by rw [Store.height, hw.shape, Store.height]
  refine ⟨⟨?_, hheight ▸ hs, (phase_completes h.rest c p).of_runs hr, ?_, ?_⟩, hw.shape, hstuck⟩
  · rw [htree]
    exact h.ready.within hw
  · rw [htree, hw.shape]
    exact h.layered
  · rw [htree, hw.shape]
    exact hhoused own out t hr

theorem calls_sane (h : Calls Eq c calls s own t) (hs : s.Sane c) : t.Sane c ∧ t.shape = s.shape := by
  induction h with
  | nil s => exact ⟨hs, rfl⟩
  | cons hrun hothers _ ih =>
    subst hothers
    obtain ⟨hsane, hshape, -⟩ := phase_sane hs _ _ _ _ hrun
    obtain ⟨hv, hshape'⟩ := ih hsane
    exact ⟨hv, hshape'.trans hshape⟩

/-- Under a failed root nothing that is started is ever stopped from the root. -/
theorem calls_stuck {d : ComponentId} (h : Calls Eq c calls s own t) (hs : s.Sane c)
    (hfailed : s.state c = .failed) (hd : d ∈ s.tree c) (hstarted : s.state d = .started) :
    t.state c = .failed ∧ t.state d = .started := by
  induction h with
  | nil s => exact ⟨hfailed, hstarted⟩
  | cons hrun hothers _ ih =>
    subst hothers
    obtain ⟨hsane, hshape, hkeep⟩ := phase_sane hs _ _ _ _ hrun
    obtain ⟨hc, hd'⟩ := hkeep hfailed d hd hstarted
    exact ih hsane hc ((Store.tree_of_shape hshape c).symm ▸ hd) hd'

/-- Any phases can be called: each comes to its end. -/
theorem exists_calls (hs : s.Sane c) (ps : List Phase) :
    ∃ calls own t, Calls Eq c calls s own t ∧ calls.map (·.1) = ps := by
  induction ps generalizing s with
  | nil => exact ⟨[], [], s, .nil s, rfl⟩
  | cons p ps ih =>
    obtain ⟨out, t, hrun, -⟩ := phase_completes hs.rest c p
    obtain ⟨own, hr⟩ : ∃ own, Runs Eq (phase c p) s own out t := Runs.of_run (fun _ => rfl) hrun
    obtain ⟨calls, own', u, hcalls, hps⟩ := ih (phase_sane hs p own out t hr).1
    exact ⟨(p, out) :: calls, own ++ own', u, .cons hr rfl hcalls, by rw [List.map_cons, hps]⟩

/-- Where nothing is started, one destruction is enough. -/
theorem destroys_all (hs : s.Sane c) (h : ∀ d ∈ s.tree c, s.state d ≠ .started) :
    ∃ own t, Calls Eq c [(.destroy, .ok ())] s own t ∧ ∀ d ∈ s.tree c, t.state d = .destroyed := by
  obtain ⟨out, t, hrun, -⟩ := phase_completes hs.rest c .destroy
  obtain ⟨own, hr⟩ : ∃ own, Runs Eq (phase c .destroy) s own out t := Runs.of_run (fun _ => rfl) hrun
  have hwreck := (runPhase_single rfl (destroy_coherent hs.ready hs.coherent)).alone Store.Aloof.refl
  obtain ⟨-, -, -, ⟨rfl, hall⟩ | ⟨-, ⟨⟨d, hd, hd'⟩, -⟩, -, -⟩⟩ :=
    ensures_phase hwreck own out t hr
  · exact ⟨own ++ [], t, .cons hr rfl (.nil t), fun d hd => (hall d hd).2⟩
  · exact absurd hd' (h d hd)

/-- Where all is started, a stop comes first. -/
theorem stops_all (hs : s.Sane c) (h : ∀ d ∈ s.tree c, s.state d = .started) :
    ∃ own t, Runs Eq (phase c .stop) s own (.ok ()) t ∧ ∀ d ∈ s.tree c, t.state d = .stopped := by
  obtain ⟨out, t, hrun, -⟩ := phase_completes hs.rest c .stop
  obtain ⟨own, hr⟩ : ∃ own, Runs Eq (phase c .stop) s own out t := Runs.of_run (fun _ => rfl) hrun
  have hstop := (phase_uniform (p := .stop) hs.ready h).alone Store.Aloof.refl
  rcases hstop own out t hr with ⟨ho, ht⟩ | ⟨-, ⟨hp, -⟩, -⟩
  · rw [Lifecycle.barePhase_outcome] at ho
    obtain rfl : out = .ok () := ho
    refine ⟨own, t, hr, fun d hd => ?_⟩
    rw [ht.state (hs.ready.placid.known d hd), along_of_mem hd]
    rfl
  · cases hp

theorem shuts_down (hs : s.Sane c) (h : ¬ (s.state c = .failed ∧ ∃ d ∈ s.tree c, s.state d = .started)) :
    ∃ calls own t, Calls Eq c calls s own t ∧
      (∀ call ∈ calls, (call.1 = .stop ∨ call.1 = .destroy) ∧ call.2 = .ok ()) ∧
      ∀ d ∈ s.tree c, t.state d = .destroyed := by
  by_cases hstarted : ∃ d ∈ s.tree c, s.state d = .started
  · -- The root has not failed, so all of the tree is started.
    have hall : ∀ d ∈ s.tree c, s.state d = .started := by
      obtain ⟨d, hd, hd'⟩ := hstarted
      have hcoherent := hs.coherent
      unfold Store.tree at *
      generalize s.height c = n at *
      cases hcoherent with
      | uniform st settled all =>
        have hst := all d hd
        exact fun e he => (all e he).trans (hst.symm.trans hd')
      | failed self below => exact absurd ⟨self, d, hd, hd'⟩ h
    obtain ⟨own, t, hr, hstopped⟩ := stops_all hs hall
    obtain ⟨hsane, hshape, -⟩ := phase_sane hs _ _ _ _ hr
    have htree := Store.tree_of_shape hshape c
    obtain ⟨own', u, hcalls, hu⟩ := destroys_all hsane fun d hd => by
      rw [hstopped d (htree ▸ hd)]
      decide
    refine ⟨_, _, u, .cons hr rfl hcalls, ?_, fun d hd => hu d (htree ▸ hd)⟩
    simp
  · obtain ⟨own, t, hcalls, ht⟩ := destroys_all hs fun d hd hd' => hstarted ⟨d, hd, hd'⟩
    exact ⟨_, own, t, hcalls, by simp, ht⟩

end

/-- The same components, where it is the second context that prepares a handler, of a class that cannot
be constructed the first time. -/
def sampleBlight : Store where
  board := sampleGrove.board
  components := ⟨[
    { kind := .domain {}, children := [("server", 1)] },
    { kind := .server, children := [("service", 2)] },
    { kind := .service, children := [("first", 3), ("second", 4)] },
    { kind := .context { request := .any, response := .any } },
    { kind := .context { request := .any, response := .any, handlers := [("echo", 0)] } }]⟩
  registrations := sampleGrove.registrations
  classes := ⟨[{ HandlerClass.idle with
    instancing := .stateless
    construct := fun n => if n = 0 then .error "boom" else .ok () }]⟩

theorem tree_sampleBlight : sampleBlight.tree 0 = [0, 1, 2, 3, 4] := by decide +kernel

theorem fresh_sampleBlight : sampleBlight.Fresh 0 := by
  have hready := ready_sampleGrove
  rw [tree_sampleGrove] at hready
  have hdesk : ∀ d r, sampleBlight.OnDesk d r → r = 0 := by
    rintro (_ | _ | _ | _ | _ | d) r ⟨desk, hd, hr⟩ <;> cases hd
    · simp [Directory.values] at hr
    · simpa [Directory.values] using hr
  have hreg : ∀ r, (sampleBlight.registration r).locked = false ∧
      (sampleBlight.registration r).active = 0 ∧ (sampleBlight.registration r).shared = none := by
    rintro (_ | r) <;> exact ⟨rfl, rfl, rfl⟩
  refine ⟨?_, ?_, ?_, fun r => ⟨(hreg r).1, (hreg r).2.1⟩, ?_, fun r => (hreg r).2.2, rfl, rfl⟩
  · rw [tree_sampleBlight]
    exact ⟨hready.nodup, hready.placid⟩
  · rw [tree_sampleBlight]
    decide
  · rw [tree_sampleBlight]
    decide
  · intro d _ r hr
    rw [hdesk d r hr]
    exact ⟨by decide, rfl⟩

/-- The start fails at the second context, when the first is started. -/
theorem start_sampleBlight : ∃ f own t, Runs Eq (phase 0 .start) sampleBlight own (.error f) t ∧
    t.state 0 = .failed ∧ t.state 3 = .started := by
  have hrun : ∃ f t, (phase 0 .start).run sampleBlight = .finished (.error f) t ∧
      t.state 0 = .failed ∧ t.state 3 = .started := ⟨_, _, rfl, rfl, rfl⟩
  obtain ⟨f, t, hrun, hstates⟩ := hrun
  obtain ⟨own, hr⟩ : ∃ own, Runs Eq (phase 0 .start) sampleBlight own (.error f) t :=
    Runs.of_run (fun _ => rfl) hrun
  exact ⟨f, own, t, hr, hstates⟩

/-- A tree can be shut down from its root, unless its root has failed and something in it is started.
Whatever has been called on a fresh tree, and whatever failed to load meanwhile, any phase may be
called next and comes to its end. Where the root has not failed, or nothing is started, stops and
destructions that succeed leave every component destroyed, and every shared instance that was ever
initialized destroyed just once. Otherwise no further calls get rid of what is started. -/
theorem fresh_tree_shuts_down {s : Store} {c : ComponentId} (h : s.Fresh c) :
    (∀ ps, ∃ calls own t, Calls Eq c calls s own t ∧ calls.map (·.1) = ps) ∧
    ∀ calls own t, Calls Eq c calls s own t →
      (¬ (t.state c = .failed ∧ ∃ d ∈ s.tree c, t.state d = .started) →
        ∃ calls' own' u, Calls Eq c calls' t own' u ∧
          (∀ call ∈ calls', (call.1 = .stop ∨ call.1 = .destroy) ∧ call.2 = .ok ()) ∧
          (∀ d ∈ s.tree c, u.state d = .destroyed) ∧
          ∀ i, u.IsStateless i → 0 < u.marks i .initialized → u.Dead i) ∧
      (t.state c = .failed → ∀ d ∈ s.tree c, t.state d = .started →
        ∀ calls' own' u, Calls Eq c calls' t own' u → u.state c = .failed ∧ u.state d = .started) := by
  have hs := h.sane
  refine ⟨exists_calls hs, fun calls own t hcalls => ?_⟩
  obtain ⟨ht, hshape⟩ := calls_sane hcalls hs
  have htree := Store.tree_of_shape hshape c
  refine ⟨fun hfree => ?_, fun hfailed d hd hd' calls' own' u hu => ?_⟩
  · rw [← htree] at hfree ⊢
    obtain ⟨calls', own', u, hu, hok, hall⟩ := shuts_down ht hfree
    obtain ⟨hsane, hshape'⟩ := calls_sane hu ht
    refine ⟨calls', own', u, hu, hok, hall, fun i hi hm => hsane.housed.dead ?_ hi hm⟩
    rw [Store.tree_of_shape hshape' c]
    exact hall
  · exact calls_stuck hu ht hfailed (htree ▸ hd) hd'

/-- After the failed start nothing that is called on the root gets the tree destroyed. -/
theorem sampleBlight_never_shuts_down : sampleBlight.Fresh 0 ∧ ∃ f own t,
    Calls Eq 0 [(.start, .error f)] sampleBlight own t ∧
      ¬ ∃ calls own' u, Calls Eq 0 calls t own' u ∧ ∀ d ∈ sampleBlight.tree 0, u.state d = .destroyed := by
  obtain ⟨f, own, t, hr, hfailed, hstarted⟩ := start_sampleBlight
  have hcalls : Calls Eq 0 [(.start, .error f)] sampleBlight (own ++ []) t := .cons hr rfl (.nil t)
  obtain ⟨hsane, hshape⟩ := calls_sane hcalls fresh_sampleBlight.sane
  have hmem : 3 ∈ sampleBlight.tree 0 := tree_sampleBlight ▸ by decide
  refine ⟨fresh_sampleBlight, f, _, t, hcalls, ?_⟩
  rintro ⟨calls, own', u, hu, hall⟩
  have hstill := calls_stuck hu hsane hfailed (Store.tree_of_shape hshape 0 ▸ hmem) hstarted
  rw [hall 3 hmem] at hstill
  cases hstill.2

theorem fresh_tree_shuts_down_sample : sampleBlight.Fresh 0 ∧
    (∃ calls own u, Calls Eq 0 calls sampleBlight own u ∧ ∀ d ∈ sampleBlight.tree 0, u.state d = .destroyed) ∧
    ∃ f own t, Runs Eq (phase 0 .start) sampleBlight own (.error f) t ∧
      ∀ calls own' u, Calls Eq 0 calls t own' u → u.state 0 = .failed ∧ u.state 3 = .started := by
  obtain ⟨-, hafter⟩ := fresh_tree_shuts_down fresh_sampleBlight
  obtain ⟨f, own, t, hr, hfailed, hstarted⟩ := start_sampleBlight
  have hmem : 3 ∈ sampleBlight.tree 0 := tree_sampleBlight ▸ by decide
  refine ⟨fresh_sampleBlight, ?_, f, own, t, hr, (hafter _ _ t (.cons hr rfl (.nil t))).2 hfailed 3 hmem hstarted⟩
  obtain ⟨calls, own', u, hu, -, hall, -⟩ := (hafter [] [] sampleBlight (.nil _)).1 fun h => by
    cases h.1
  exact ⟨calls, own', u, hu, hall⟩

end Switchboard.Container
