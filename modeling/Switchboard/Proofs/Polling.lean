import Mathlib.Data.List.Range
import Switchboard.Number.Width
import Switchboard.Proofs.Runs
import Switchboard.Trial.Console.Components

/-!
# Bounded waits

A wait ends, whatever becomes of the state while it sleeps. Its observations are
the states that it comes upon, as many as it counts and one more than the retries
at the most; it converges at the first that satisfies the predicate, and gives up
after the last. Every run of the activity is a poll of such a course of states, and
for every course there is a run.
-/

namespace Switchboard

namespace Lifecycle

variable {pred : State → Bool} {observe observe' : Nat → State} {n k : Nat} {out : Convergence}

/-! ## Polls -/

/-- A poll does not depend on what was observed before it. -/
theorem pollFrom_congr (h : ∀ m, n ≤ m → observe m = observe' m) :
    pollFrom pred observe n k = pollFrom pred observe' n k := by
  induction k generalizing n with
  | zero => rw [pollFrom, pollFrom, h n (Nat.le_refl n)]
  | succ k ih => rw [pollFrom, pollFrom, h n (Nat.le_refl n), ih fun m hm => h m (by omega)]

theorem pollFrom_last (h : pred (observe n) = true ∨ k = 0) :
    pollFrom pred observe n k = ⟨observe n, pred (observe n), n + 1⟩ := by
  cases k with
  | zero => rw [pollFrom]
  | succ k =>
    have hp := h.resolve_right (Nat.succ_ne_zero k)
    rw [pollFrom, if_pos hp, hp]

theorem pollFrom_next (h : pred (observe n) = false) :
    pollFrom pred observe n (k + 1) = pollFrom pred observe (n + 1) k := by
  rw [pollFrom, if_neg (by simp [h])]

/-- What becomes of a poll that has made `n` observations without success and has `k` retries left. -/
structure Convergence.EndsFrom (pred : State → Bool) (observe : Nat → State) (n k : Nat)
    (out : Convergence) : Prop where
  lt_polls : n < out.polls
  polls_le : out.polls ≤ n + k + 1
  state_eq : out.state = observe (out.polls - 1)
  last : out.converged = pred (observe (out.polls - 1))
  before : ∀ m, n ≤ m → m < out.polls - 1 → pred (observe m) = false
  spent : out.converged = false → out.polls = n + k + 1

theorem Convergence.endsFrom_now (h : pred (observe n) = false → k = 0) :
    Convergence.EndsFrom pred observe n k ⟨observe n, pred (observe n), n + 1⟩ where
  lt_polls := Nat.lt_succ_self n
  polls_le := by show n + 1 ≤ n + k + 1; omega
  state_eq := rfl
  last := rfl
  before m hnm hmn := by simp only [Nat.add_sub_cancel] at hmn; omega
  spent hc := by rw [h hc]

theorem Convergence.EndsFrom.earlier (h : out.EndsFrom pred observe (n + 1) k)
    (hn : pred (observe n) = false) : out.EndsFrom pred observe n (k + 1) where
  lt_polls := by have := h.lt_polls; omega
  polls_le := by have := h.polls_le; omega
  state_eq := h.state_eq
  last := h.last
  before m hnm hm := by
    rcases Nat.eq_or_lt_of_le hnm with rfl | hlt
    · exact hn
    · exact h.before m hlt hm
  spent hc := by have := h.spent hc; omega

theorem pollFrom_endsFrom (pred : State → Bool) (observe : Nat → State) (n k : Nat) :
    (pollFrom pred observe n k).EndsFrom pred observe n k := by
  induction k generalizing n with
  | zero =>
    rw [pollFrom_last (.inr rfl)]
    exact Convergence.endsFrom_now fun _ => rfl
  | succ k ih =>
    cases hp : pred (observe n) with
    | true =>
      rw [pollFrom_last (.inl hp)]
      exact Convergence.endsFrom_now fun hn => absurd (hp.symm.trans hn) (by decide)
    | false =>
      rw [pollFrom_next hp]
      exact (ih (n + 1)).earlier hp

end Lifecycle

namespace Container

open Lifecycle Activity

variable {pred : State → Bool} {c : ComponentId} {sleep : Signal} {world world' : Nat → Store}
variable {n k : Nat}

/-! ## Observations -/

/-- The observations from number `n` to the one before `m`, each of which leaves the store as it is. -/
def looks (world : Nat → Store) (n m : Nat) : List (Store × Store) :=
  (List.range' n (m - n)).map fun i => (world i, world i)

theorem looks_cons {m : Nat} (h : n < m) : looks world n m = (world n, world n) :: looks world (n + 1) m := by
  rw [looks, looks, show m - n = (m - (n + 1)) + 1 by omega, List.range'_succ, List.map_cons]

theorem looks_congr {m : Nat} (h : ∀ i, n ≤ i → world i = world' i) : looks world n m = looks world' n m := by
  refine List.map_congr_left fun i hi => ?_
  rw [h i (List.mem_range'_1.1 hi).1]

/-! ## Runs of a wait -/

section

variable {α : Type} {rely : Store → Store → Prop} {s t : Store} {own : List (Store × Store)} {a : α}

/-- To observe a state is a step of its own, which changes nothing. -/
theorem runs_observe {f : State → Work α} :
    Runs rely (onBoard (fun b => (b, b.state c)) >>= f) s own a t ↔
      ∃ own', own = (s, s) :: own' ∧ Runs rely (f (s.state c)) s own' a t := by
  have hsteps : (onBoard (fun b => (b, b.state c)) >>= f : Work α) =
    .read fun s => .write s (f (s.state c)) := rfl
  rw [hsteps]
  constructor
  · intro h
    cases h with | read h => cases h with | write h => exact ⟨_, rfl, h⟩
  · rintro ⟨own', rfl, h⟩
    exact .read (.write h)

theorem runs_yield_bind {f : Unit → Work α} :
    Runs rely (yield sleep >>= f) s own a t ↔ ∃ u, rely s u ∧ Runs rely (f ()) u own a t := by
  have hsteps : (yield sleep >>= f : Work α) = .await (fun _ => true) (fun _ => sleep) (f ()) := rfl
  rw [hsteps]
  constructor
  · intro h
    cases h with | await hu _ h => exact ⟨_, hu, h⟩
  · rintro ⟨u, hu, h⟩
    exact .await hu rfl h

end

section

variable {retries : Nat} {s t : Store} {own : List (Store × Store)} {out : Convergence}

theorem runs_waitFrom_last (h : pred (s.state c) = true ∨ retries ≤ n) :
    Runs anything (waitFrom pred c sleep retries n) s own out t ↔
      own = [(s, s)] ∧ out = ⟨s.state c, pred (s.state c), n + 1⟩ ∧ t = s := by
  rw [waitFrom, runs_observe]
  by_cases hp : pred (s.state c) = true
  · simp [hp, runs_pure]
  · simp [hp, Nat.lt_succ_of_le (h.resolve_left hp), runs_pure]

theorem runs_waitFrom_next (hp : pred (s.state c) = false) (hn : n < retries) :
    Runs anything (waitFrom pred c sleep retries n) s own out t ↔
      ∃ own', own = (s, s) :: own' ∧
        ∃ u, Runs anything (waitFrom pred c sleep retries (n + 1)) u own' out t := by
  rw [waitFrom, runs_observe]
  simp [hp, show ¬ retries < n + 1 by omega, runs_yield_bind, anything]

/-- The course of stores that a wait comes upon, from its observation `n` on. -/
structure Meets (pred : State → Bool) (c : ComponentId) (n k : Nat) (own : List (Store × Store))
    (out : Convergence) (t : Store) (world : Nat → Store) : Prop where
  out_eq : out = pollFrom pred (fun m => (world m).state c) n k
  own_eq : own = looks world n out.polls
  store_eq : t = world (out.polls - 1)

theorem meets_last (h : pred ((world n).state c) = true ∨ k = 0) : Meets pred c n k own out t world ↔
    own = [(world n, world n)] ∧ out = ⟨(world n).state c, pred ((world n).state c), n + 1⟩ ∧ t = world n := by
  have hpoll : pollFrom pred (fun m => (world m).state c) n k = _ := pollFrom_last h
  constructor
  · rintro ⟨rfl, rfl, rfl⟩
    rw [hpoll]
    exact ⟨by simp [looks], rfl, rfl⟩
  · rintro ⟨rfl, rfl, rfl⟩
    exact ⟨hpoll.symm, by simp [looks], rfl⟩

theorem meets_next (hp : pred ((world n).state c) = false) : Meets pred c n (k + 1) own out t world ↔
    ∃ own', own = (world n, world n) :: own' ∧ Meets pred c (n + 1) k own' out t world := by
  have hpoll : pollFrom pred (fun m => (world m).state c) n (k + 1) = _ := pollFrom_next hp
  have hlt := (pollFrom_endsFrom pred (fun m => (world m).state c) (n + 1) k).lt_polls
  constructor
  · rintro ⟨rfl, rfl, rfl⟩
    rw [hpoll]
    exact ⟨_, looks_cons (by omega), rfl, rfl, rfl⟩
  · rintro ⟨own', rfl, rfl, rfl, rfl⟩
    exact ⟨hpoll.symm, (looks_cons (by omega)).symm, rfl⟩

theorem Meets.congr (h : Meets pred c n k own out t world) (hw : ∀ m, n ≤ m → world m = world' m) :
    Meets pred c n k own out t world' := by
  obtain ⟨rfl, rfl, rfl⟩ := h
  have hpoll : pollFrom pred _ n k = _ := pollFrom_congr fun m hm => congrArg (Store.state · c) (hw m hm)
  have hlt := (pollFrom_endsFrom pred (fun m => (world m).state c) n k).lt_polls
  exact ⟨hpoll, looks_congr hw, hw _ (by omega)⟩

/-- The runs of a wait, each with the course of stores that it comes upon. -/
theorem runs_waitFrom_iff :
    Runs anything (waitFrom pred c sleep (n + k) n) s own out t ↔
      ∃ world : Nat → Store, world n = s ∧ Meets pred c n k own out t world := by
  induction k generalizing n s own with
  | zero =>
    rw [runs_waitFrom_last (.inr (show n + 0 ≤ n from Nat.le_refl n))]
    constructor
    · exact fun h => ⟨fun _ => s, rfl, (meets_last (.inr rfl)).2 h⟩
    · rintro ⟨world, rfl, h⟩
      exact (meets_last (.inr rfl)).1 h
  | succ k ih =>
    cases hp : pred (s.state c) with
    | true =>
      rw [runs_waitFrom_last (.inl hp)]
      constructor
      · exact fun h => ⟨fun _ => s, rfl, (meets_last (.inl hp)).2 h⟩
      · rintro ⟨world, rfl, h⟩
        exact (meets_last (.inl hp)).1 h
    | false =>
      rw [runs_waitFrom_next hp (by omega), show n + (k + 1) = n + 1 + k by omega]
      constructor
      · rintro ⟨own', rfl, u, hr⟩
        obtain ⟨world, -, h⟩ := ih.1 hr
        -- the course of the rest, with the store of this observation put before it
        refine ⟨Function.update world n s, Function.update_self .., (meets_next ?_).2 ⟨own', ?_, ?_⟩⟩
        · rwa [Function.update_self]
        · rw [Function.update_self]
        · exact h.congr fun m hm => (Function.update_of_ne (by omega) ..).symm
      · rintro ⟨world, rfl, h⟩
        obtain ⟨own', rfl, h'⟩ := (meets_next hp).1 h
        exact ⟨own', rfl, _, ih.2 ⟨world, rfl, h'⟩⟩

end

/-! ## What a wait comes to -/

/-- A wait that comes upon a course of stores: its own steps, its answer and the store it ends in. -/
structure Observes (pred : State → Bool) (c : ComponentId) (retries : Nat) (world : Nat → Store)
    (own : List (Store × Store)) (out : Convergence) (t : Store) : Prop where
  /-- It makes as many observations as it counts, and no other step. -/
  observed : own = (List.range out.polls).map fun n => (world n, world n)
  ends : t = world (out.polls - 1)
  one_le : 1 ≤ out.polls
  polls_le : out.polls ≤ retries + 1
  /-- The count is a machine word where the budget is below the greatest one. -/
  counts : retries + 1 < Width.wordLimit → out.polls < Width.wordLimit
  converged_iff : out.converged = true ↔ ∃ n ≤ retries, pred ((world n).state c) = true
  first : out.converged = true → pred ((world (out.polls - 1)).state c) = true ∧
    ∀ n < out.polls - 1, pred ((world n).state c) = false
  spent : out.converged = false → out.polls = retries + 1
  state_eq : out.state = (world (out.polls - 1)).state c

theorem Meets.observes {retries : Nat} {own : List (Store × Store)} {out : Convergence} {t : Store}
    (h : Meets pred c 0 retries own out t world) : Observes pred c retries world own out t := by
  obtain ⟨hout, rfl, rfl⟩ := h
  have hends : out.EndsFrom pred (fun m => (world m).state c) 0 retries :=
    hout ▸ pollFrom_endsFrom pred _ 0 retries
  have hle := hends.polls_le
  have hlt := hends.lt_polls
  have hlast := hends.last
  exact {
    observed := by rw [looks, List.range_eq_range', Nat.sub_zero]
    ends := rfl
    one_le := hlt
    polls_le := by omega
    counts := by omega
    converged_iff := by
      constructor
      · intro hc
        exact ⟨out.polls - 1, by omega, hlast.symm.trans hc⟩
      · rintro ⟨n, hn, hp⟩
        -- a wait that gave up has made every observation in vain
        by_contra hc
        have hspent := hends.spent (Bool.not_eq_true _ ▸ hc)
        rcases Nat.lt_or_ge n (out.polls - 1) with h | h
        · rw [hends.before n (Nat.zero_le n) h] at hp
          cases hp
        · rw [hlast, show out.polls - 1 = n by omega] at hc
          exact hc hp
    first := fun hc => ⟨hlast.symm.trans hc, fun n hn => hends.before n (Nat.zero_le n) hn⟩
    spent := fun hc => by have := hends.spent hc; omega
    state_eq := hends.state_eq }

theorem runs_waitFor_iff {retries : Nat} {s t : Store} {own : List (Store × Store)} {out : Convergence} :
    Runs anything (waitFor pred c sleep retries) s own out t ↔
      ∃ world : Nat → Store, world 0 = s ∧ Meets pred c 0 retries own out t world := by
  have h : Runs anything (waitFrom pred c sleep (0 + retries) 0) s own out t ↔ _ := runs_waitFrom_iff
  rwa [Nat.zero_add] at h

/--
A wait ends for every course of the stores that it comes upon; and every run of a
wait is one over such a course. It converges at the first state observed that
satisfies the predicate, or it has made all its observations and gives up.
-/
theorem wait_observes (pred : State → Bool) (c : ComponentId) (sleep : Signal) (retries : Nat) :
    (∀ world : Nat → Store, ∃ own out t, Runs anything (waitFor pred c sleep retries) (world 0) own out t ∧
      Observes pred c retries world own out t) ∧
    (∀ s own out t, Runs anything (waitFor pred c sleep retries) s own out t →
      ∃ world : Nat → Store, world 0 = s ∧ Observes pred c retries world own out t) := by
  constructor
  · intro world
    have hmeets : Meets pred c 0 retries _ _ _ world := ⟨rfl, rfl, rfl⟩
    exact ⟨_, _, _, runs_waitFor_iff.2 ⟨world, rfl, hmeets⟩, hmeets.observes⟩
  · intro s own out t hr
    obtain ⟨world, hw, h⟩ := runs_waitFor_iff.1 hr
    exact ⟨world, hw, h.observes⟩

/-- A component that stays as it was made is waited for in vain. -/
theorem wait_observes_spent :
    let s := (({} : Store).addComponent "slow" (.domain {})).1
    let started (t : State) : Bool := t = .started
    ∃ own t, Runs anything (waitFor started 0 Signal.turn 3) s own ⟨.new, false, 4⟩ t ∧
      ∃ world : Nat → Store, world 0 = s ∧ Observes started 0 3 world own ⟨.new, false, 4⟩ t := by
  intro s started
  have hs : s.state 0 = .new := by decide
  obtain ⟨own, out, t, hr, h⟩ := (wait_observes started 0 Signal.turn 3).1 fun _ => s
  have hconverged : out.converged = false := by
    rw [← Bool.not_eq_true, h.converged_iff, hs]
    rintro ⟨_, _, hp⟩
    cases hp
  obtain rfl : out = ⟨.new, false, 4⟩ := by
    have hstate : out.state = .new := h.state_eq.trans hs
    have hpolls : out.polls = 4 := h.spent hconverged
    rw [← hstate, ← hconverged, ← hpolls]
  exact ⟨own, t, hr, (wait_observes started 0 Signal.turn 3).2 _ _ _ _ hr⟩

end Container

namespace Trial.Console

open Lifecycle Container Activity

/-- What a console answers when it waits for a domain, a wait for the domain may come to. -/
theorem wait_runs {c c' : Console} {d : ComponentId} {target : State} {out : Convergence}
    {settings : Settings} (hd : (c.store.component d).kind = .domain settings)
    (h : c.wait d target = (c', .waited out)) :
    ∃ own t, Runs anything (waitUntilIn settings d target) c.store own out t := by
  simp only [wait, hd, Prod.mk.injEq, Answer.waited.injEq] at h
  obtain ⟨rfl, rfl⟩ := h
  generalize (if c.store.state d = target ∨ settings.pollRetries = 0 then c else c.drain) = later
  let world (n : Nat) : Store := if n = 0 then c.store else later.store
  have hseen : (fun n => if n = 0 then c.store.state d else later.store.state d) =
      fun n => (world n).state d := by
    funext n
    exact (apply_ite (·.state d) (n = 0) c.store later.store).symm
  rw [hseen]
  have hmeets : Meets (fun s => s = target) d 0 settings.pollRetries _ _ _ world := ⟨rfl, rfl, rfl⟩
  exact ⟨_, _, runs_waitFor_iff.2 ⟨world, rfl, hmeets⟩⟩

end Trial.Console
end Switchboard
