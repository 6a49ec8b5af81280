import Switchboard.Activity

/-!
# Schedules

Activities that take turns on one state. Each runs until it ends or is parked;
whenever one has stopped, every parked activity whose signal is up joins the end
of the queue, in the order in which they were parked.
-/

namespace Switchboard

structure Schedule (σ ω α : Type) where
  ready : List (Nat × Activity σ ω α) := []
  parked : List (ω × Nat × Activity σ ω α) := []
  finished : List (Nat × α) := []
  /-- How many activities have been given a number. -/
  numbered : Nat := 0

namespace Schedule

variable {σ ω α : Type}

/-- How many turns there are before a schedule is given up. -/
def turns : Nat := 100000

/-- Queues a new activity and gives its number. -/
def submit (q : Schedule σ ω α) (x : Activity σ ω α) : Schedule σ ω α × Nat :=
  ({ q with ready := q.ready ++ [(q.numbered, x)], numbered := q.numbered + 1 }, q.numbered)

/-- Queues the parked activities whose signals are up. -/
def wake (isUp : ω → Bool) (q : Schedule σ ω α) : Schedule σ ω α :=
  { q with
    ready := q.ready ++ (q.parked.filter fun p => isUp p.1).map (·.2)
    parked := q.parked.filter fun p => !isUp p.1 }

/-- Runs the first activity of the queue. -/
def turn (q : Schedule σ ω α) (s : σ) : Schedule σ ω α × σ :=
  match q.ready with
  | [] => (q, s)
  | (n, x) :: rest =>
    match x.run s with
    | .finished a s => ({ q with ready := rest, finished := q.finished ++ [(n, a)] }, s)
    | .parked w x s => ({ q with ready := rest, parked := q.parked ++ [(w, n, x)] }, s)

/-- Takes turns until no activity can go on. -/
def drainFrom (isUp : σ → ω → Bool) : Nat → Schedule σ ω α → σ → Schedule σ ω α × σ
  | 0, q, s => (q, s)
  | n + 1, q, s =>
    let q := q.wake (isUp s)
    if q.ready.isEmpty then (q, s)
    else
      let (q, s) := q.turn s
      drainFrom isUp n q s

def drain (isUp : σ → ω → Bool) (q : Schedule σ ω α) (s : σ) : Schedule σ ω α × σ :=
  drainFrom isUp turns q s

def result? (q : Schedule σ ω α) (n : Nat) : Option α := q.finished.lookup n

end Schedule
end Switchboard
