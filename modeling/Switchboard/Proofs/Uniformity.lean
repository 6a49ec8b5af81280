import Switchboard.Proofs.Cascades
import Switchboard.Proofs.Completion

/-!
# A tree in one state behaves like one component

Where all components of a tree are in one state, a phase of the first brings them
all to the state in which it leaves a component without hooks, their listeners hear
what that component's listeners hear, and it is denied as it is there. Nothing but
an instance that could not be made keeps the tree from it.
-/

namespace Switchboard.Container

open Activity
open Lifecycle (Phase State runPhase runSingle needsInit barePhase itinerary)
open Lifecycle.Board (along along_of_mem along_of_not_mem)

section

variable {s t u : Store} {c : ComponentId} {n : Nat} {p : Phase} {st : State}

/-- A phase that does not initialize first, on a tree in one state. -/
theorem runSingle_uniform (hr : s.Ready (preorder s.childIds n c))
    (hst : ∀ d ∈ preorder s.childIds n c, s.state d = st) :
    Ensures Store.Aloof (runSingle (hookAt n c p) c p) (fun own out t =>
      out = p.verdict (s.name c) st ∧ s.Marched t (along (preorder s.childIds n c) (p.steps st)) ∨
      (∃ f, out = .error f) ∧ (p = .start ∧ Fails own) ∧
        s.Within (preorder s.childIds n c) t ∧ t.state c = .failed ∧ t.IsCoherent n c) s := by
  have hself := hst c (mem_preorder_self _ n c)
  by_cases he : p.Enters st
  · rw [Phase.verdict_of_enters he, Phase.steps_of_enters he]
    exact runSingle_marches hr hst he
  · refine (runSingle_stays (hself ▸ he)).mono ?_
    rintro own out t ⟨ho, rfl⟩
    refine .inl ⟨hself ▸ ho, (Store.Within.refl t).marched fun d _ => ?_⟩
    rw [Phase.steps, if_neg he]
    exact .refl _ d

/-- A phase on a tree in one state: it goes as it does for a component without hooks, or an instance
could not be made and what is left is coherent. -/
theorem runPhase_uniform (hr : s.Ready (preorder s.childIds n c))
    (hst : ∀ d ∈ preorder s.childIds n c, s.state d = st) :
    Ensures Store.Aloof (runPhase (hookAt n c) c p) (fun own out t =>
      out = (barePhase (s.name c) st p).1 ∧ s.Marched t (along (preorder s.childIds n c) (p.route st)) ∨
      (∃ f, out = .error f) ∧ (p = .start ∧ Fails own) ∧
        s.Within (preorder s.childIds n c) t ∧ t.state c = .failed ∧ t.IsCoherent n c) s := by
  have hself := hst c (mem_preorder_self _ n c)
  rw [Lifecycle.barePhase_outcome]
  by_cases hn : needsInit p st = true
  · obtain ⟨rfl, hinit, hstart⟩ := Phase.of_needsInit hn
    refine ensures_bind.2 (ensures_act.2 ?_)
    rw [if_pos (by exact (congrArg (needsInit .start) hself).trans hn), if_pos hn, Phase.route, if_pos hn]
    refine ensures_bind.2 ((runSingle_uniform (p := .init) hr hst).mono ?_)
    rintro own out u (⟨rfl, hu⟩ | ⟨-, ⟨hp, -⟩, -⟩)
    · rw [Phase.verdict_of_enters hinit]
      have hafter : ∀ d ∈ preorder u.childIds n c, u.state d = .initialized := by
        rw [hu.childIds]
        intro d hd
        rw [hu.state (hr.placid.known d hd), along_of_mem hd, Phase.steps_of_enters hinit]
        rfl
      have hru : u.Ready (preorder u.childIds n c) := hu.childIds ▸ hr.within hu.within
      refine (runSingle_uniform (p := .start) hru hafter).mono ?_
      rw [hu.childIds]
      rintro own' out t (⟨rfl, ht⟩ | ⟨hf, ⟨-, hb⟩, ht, hfailed, hs⟩)
      · exact .inl ⟨Phase.verdict_of_enters hstart _, hu.trans_along ht⟩
      · refine .inr ⟨hf, ⟨rfl, hb.mono fun w hw => ?_⟩, hu.within.trans ht, hfailed, hs⟩
        simp [hw]
    · cases hp
  · have hn' : needsInit p (s.state c) = false := by
      rw [hself]
      exact Bool.not_eq_true _ ▸ hn
    rw [if_neg hn, Phase.route, if_neg hn]
    refine (runPhase_single hn' (runSingle_uniform hr hst)).mono ?_
    rintro own out t ⟨own', hsub, h | ⟨hf, ⟨hp, hb⟩, h⟩⟩
    · exact .inl h
    · exact .inr ⟨hf, ⟨hp, hb.mono hsub⟩, h⟩

theorem phase_uniform (hr : s.Ready (s.tree c)) (hst : ∀ d ∈ s.tree c, s.state d = st) :
    Ensures Store.Aloof (phase c p) (fun own out t =>
      out = (barePhase (s.name c) st p).1 ∧ s.Marched t (along (s.tree c) (p.route st)) ∨
      (∃ f, out = .error f) ∧ (p = .start ∧ Fails own) ∧
        s.Within (s.tree c) t ∧ t.state c = .failed ∧ t.IsCoherent (s.height c) c) s :=
  ensures_phase (runPhase_uniform hr hst)

end

/-! ## Any number of phases -/

/-- Phases of a component that are called one after the other, with what each came to. Before the next
call others may do what `rely` allows. -/
inductive Calls (rely : Store → Store → Prop) (c : ComponentId) :
    List (Phase × Except Lifecycle.Fault Unit) → Store → List (Store × Store) → Store → Prop where
  | nil (s : Store) : Calls rely c [] s [] s
  | cons {p : Phase} {out : Except Lifecycle.Fault Unit} {s t u v : Store}
      {own own' : List (Store × Store)} {calls : List (Phase × Except Lifecycle.Fault Unit)} :
      Runs rely (phase c p) s own out t → rely t u → Calls rely c calls u own' v →
      Calls rely c ((p, out) :: calls) s (own ++ own') v

/-- The state of a component without hooks after some phases. -/
def bareState (name : String) (st : State) (ps : List Phase) : State :=
  ps.foldl (fun st p => (barePhase name st p).2.state 0) st

/-- A tree went the way of a component without hooks that is called in a state: each of its components
is left in the same state, and what the listeners of each heard is the same; nobody else moved. -/
structure Store.AsBare (s t : Store) (c : ComponentId) (st : State) (p : Phase) : Prop where
  state : ∀ d ∈ s.tree c, t.state d = (barePhase (s.name d) st p).2.state 0
  heard : ∀ d ∈ s.tree c, ∀ i, t.board.heard d i = s.board.heard d i ++
    if s.board.isSubscribed d i then (barePhase (s.name d) st p).2.heard 0 0 else []
  others : ∀ d ∉ s.tree c, t.board.manager? d = s.board.manager? d ∧
    ∀ i, t.board.heard d i = s.board.heard d i

section

variable {s t : Store} {c : ComponentId} {p : Phase} {st : State}

theorem Store.Marched.asBare (h : s.Marched t (along (s.tree c) (p.route st)))
    (hr : s.Ready (s.tree c)) (hst : ∀ d ∈ s.tree c, s.state d = st) : s.AsBare t c st p := by
  refine ⟨fun d hd => ?_, fun d hd i => ?_, fun d hd => ?_⟩
  · rw [h.state (hr.placid.known d hd), along_of_mem hd, hst d hd, Lifecycle.barePhase_state]
  · have hw := h.follows.walked d
    rw [along_of_mem hd] at hw
    rw [Lifecycle.barePhase_heard, hw.heard, ← hst d hd]
    rfl
  · have hw := h.follows.walked d
    rw [along_of_not_mem hd] at hw
    exact hw.stayed

/-- A component without hooks is denied by name, and stays where it is. -/
theorem barePhase_denied {name : String} {f : Lifecycle.Fault} (h : (barePhase name st p).1 = .error f) :
    (∃ target, f = .denied name st target) ∧ p.route st = [] := by
  rw [Lifecycle.barePhase_outcome] at h
  split at h
  · cases h
  · rename_i hn
    unfold Phase.verdict at h
    split at h
    · cases h
    · rename_i hv
      obtain ⟨-, hv⟩ := not_or.1 hv
      refine ⟨⟨_, (Except.error.inj h).symm⟩, ?_⟩
      rw [Phase.route, if_neg hn, Phase.steps, if_neg fun he => hv he.2]

theorem calls_uniform {calls : List (Phase × Except Lifecycle.Fault Unit)} {own : List (Store × Store)}
    (h : Calls Store.Aloof c calls s own t) (hr : s.Ready (s.tree c))
    (hst : ∀ d ∈ s.tree c, s.state d = st) (hf : ¬ Fails own) :
    t.tree c = s.tree c ∧ ∀ name, ∀ d ∈ t.tree c, t.state d = bareState name st (calls.map (·.1)) := by
  induction h generalizing st with
  | nil s => exact ⟨rfl, fun _ => hst⟩
  | @cons p out s t u v own own' calls hrun hothers _ ih =>
    rcases phase_uniform hr hst own out t hrun with ⟨-, hm⟩ | ⟨-, ⟨-, hb⟩, -⟩
    · have hsu : s.Marched u _ := hm.trans hothers.marched
      have htree : u.tree c = s.tree c := Store.tree_of_shape hsu.shape c
      have hafter : ∀ d ∈ u.tree c, u.state d = (p.route st).getLastD st := by
        rw [htree]
        intro d hd
        rw [hsu.state (hr.placid.known d hd), along_of_mem hd, hst d hd, List.append_nil]
      have hru : u.Ready (u.tree c) := htree ▸ ⟨hr.nodup, hsu.placid hr.placid⟩
      obtain ⟨hv, hstates⟩ := ih hru hafter fun hb => hf (hb.mono (List.subset_append_right _ _))
      refine ⟨hv.trans htree, fun name d hd => ?_⟩
      rw [List.map_cons, bareState, List.foldl_cons, Lifecycle.barePhase_state]
      exact hstates name d hd
    · exact absurd (hb.mono (List.subset_append_left _ _)) hf

end

/-- A tree whose components are all in one state behaves like one component without hooks. Whatever
others do meanwhile, as long as they leave the lifecycles and the branches alone, and unless a
handler that is prepared in a start cannot be made: a phase of the first component comes to just
what it comes to for the single one, with the tree in step; it is denied in the name of the first,
and then nobody has moved. Where nobody is at work, it comes to an end. And any phases in turn keep
the tree in one state. -/
theorem uniform_tree_as_bare {s : Store} {c : ComponentId} {st : State} (hr : s.Ready (s.tree c))
    (hst : ∀ d ∈ s.tree c, s.state d = st) :
    (∀ p own out t, Runs Store.Aloof (phase c p) s own out t → ¬ Fails own →
      out = (barePhase (s.name c) st p).1 ∧ s.AsBare t c st p ∧
        ∀ f, out = .error f → (∃ target, f = .denied (s.name c) st target) ∧
          ∀ d, t.board.manager? d = s.board.manager? d ∧ ∀ i, t.board.heard d i = s.board.heard d i) ∧
    (s.AtRest → ∀ p, Completes (phase c p) (fun _ _ => True) s) ∧
    ∀ calls own t, Calls Store.Aloof c calls s own t → ¬ Fails own →
      t.tree c = s.tree c ∧ ∀ name, ∀ d ∈ t.tree c, t.state d = bareState name st (calls.map (·.1)) := by
  refine ⟨fun p own out t hrun hf => ?_, fun h p => ?_, fun calls own t h hf => calls_uniform h hr hst hf⟩
  · rcases phase_uniform hr hst own out t hrun with ⟨rfl, hm⟩ | ⟨-, ⟨-, hb⟩, -⟩
    · refine ⟨rfl, hm.asBare hr hst, fun f hf => ?_⟩
      obtain ⟨hdenied, hroute⟩ := barePhase_denied hf
      refine ⟨hdenied, fun d => ?_⟩
      have hw := hm.follows.walked d
      rw [hroute, along, ite_self] at hw
      exact hw.stayed
    · exact absurd hb hf
  · exact (phase_completes h c p).mono fun _ _ _ => trivial

/-- A domain, a server and a service with two contexts, the first of which prepares a handler. -/
def sampleGrove : Store where
  board := { managers := ["domain", "server", "service", "first", "second"].map fun n =>
    { name := n, subscriptions := [.quiet "counter"] } }
  components := ⟨[
    { kind := .domain {}, children := [("server", 1)] },
    { kind := .server, children := [("service", 2)] },
    { kind := .service, children := [("first", 3), ("second", 4)] },
    { kind := .context { request := .any, response := .any, handlers := [("echo", 0)] } },
    { kind := .context { request := .any, response := .any } }]⟩
  registrations := ⟨[{ name := "echo", cls := 0, instancing := .stateless, loadOnStartup := true }]⟩
  classes := ⟨[.idle]⟩

theorem tree_sampleGrove : sampleGrove.tree 0 = [0, 1, 2, 3, 4] := by decide +kernel

theorem ready_sampleGrove : sampleGrove.Ready (sampleGrove.tree 0) := by
  rw [tree_sampleGrove]
  refine ⟨by decide, rfl, by decide, ?_⟩
  have hquiet : ∀ c ∈ [0, 1, 2, 3, 4], sampleGrove.board.active c = [(0, .quiet "counter")] := by
    simp only [List.forall_mem_cons]
    exact ⟨rfl, rfl, rfl, rfl, rfl, List.forall_mem_nil _⟩
  intro c hc l hl e
  rw [hquiet c hc] at hl
  rw [List.mem_singleton.1 hl]
  exact Lifecycle.Board.respond_quiet _ e

theorem uniform_tree_as_bare_sample :
    sampleGrove.Ready (sampleGrove.tree 0) ∧ (∀ d ∈ sampleGrove.tree 0, sampleGrove.state d = .new) ∧
    Completes (phase 0 .start) (fun out t => out = .ok () ∧ ∀ d ∈ sampleGrove.tree 0,
      t.state d = .started ∧ t.board.heard d 0 = itinerary (sampleGrove.name d) .new
        [.initializing, .initialized, .starting, .started]) sampleGrove := by
  have hnew : ∀ d ∈ sampleGrove.tree 0, sampleGrove.state d = .new := by
    rw [tree_sampleGrove]
    decide
  have hrest : sampleGrove.AtRest := by
    intro r
    rcases r with _ | r
    · exact ⟨rfl, rfl⟩
    · exact ⟨rfl, rfl⟩
  obtain ⟨hphase, hends, -⟩ := uniform_tree_as_bare ready_sampleGrove hnew
  have hmade : ¬ Fails ((phase 0 .start).writes sampleGrove) := by
    have hnone : (noted ((phase 0 .start).writes sampleGrove)).any Act.isFailure = false := by
      decide +kernel
    rintro ⟨a, ha, hf⟩
    exact Bool.false_ne_true (hnone.symm.trans (List.any_eq_true.2 ⟨a, ha, hf⟩))
  refine ⟨ready_sampleGrove, hnew, ((hends hrest .start).ensures Store.Aloof.refl
    fun own out t hrun => hphase .start own out t hrun).mono fun out t h => ?_⟩
  obtain ⟨rfl, hbare, -⟩ := h.2 hmade
  refine ⟨Lifecycle.barePhase_outcome .., fun d hd => ⟨?_, ?_⟩⟩
  · rw [hbare.state d hd, Lifecycle.barePhase_state]
    rfl
  · rw [hbare.heard d hd 0, Lifecycle.barePhase_heard]
    rw [tree_sampleGrove] at hd
    have hsub : ∀ d ∈ [0, 1, 2, 3, 4], sampleGrove.board.isSubscribed d 0 = true := by decide
    rw [if_pos (hsub d hd)]
    rfl

end Switchboard.Container
