/-!
# Activities

An `Activity σ ω α` works on a state `σ`, may be suspended, and ends with an
`α`. Between two suspensions it is atomic. `await pass wake` goes on at once
where `pass` holds of the state; otherwise the activity is parked on the signal
`wake` gives, and looks again when it is resumed. `Activity.run` carries an
activity to its end or to the place where it is parked.
-/

namespace Switchboard

inductive Activity (σ ω α : Type) where
  | done (value : α)
  | read (next : σ → Activity σ ω α)
  | write (state : σ) (next : Activity σ ω α)
  | await (pass : σ → Bool) (wake : σ → ω) (next : Activity σ ω α)

/-- Where a run got to. -/
inductive Progress (σ ω α : Type) where
  | finished (value : α) (state : σ)
  | parked (signal : ω) (rest : Activity σ ω α) (state : σ)

namespace Activity

variable {σ ω α β γ : Type}

def bind : Activity σ ω α → (α → Activity σ ω β) → Activity σ ω β
  | done a, f => f a
  | read next, f => read fun s => (next s).bind f
  | write s next, f => write s (next.bind f)
  | await pass wake next, f => await pass wake (next.bind f)

instance : Monad (Activity σ ω) where
  pure := done
  bind := bind

def get : Activity σ ω σ := read done

/-- One atomic step on the state. -/
def act (f : σ → σ × α) : Activity σ ω α := read fun s => write (f s).1 (done (f s).2)

def modify (f : σ → σ) : Activity σ ω Unit := read fun s => write (f s) (done ())

/-- A place where other activities may run, though this one need not wait. -/
def yield (wake : ω) : Activity σ ω Unit := await (fun _ => true) (fun _ => wake) (done ())

/-- Waits until the state passes. -/
def waitUntil (pass : σ → Bool) (wake : σ → ω) : Activity σ ω Unit := await pass wake (done ())

def run : Activity σ ω α → σ → Progress σ ω α
  | done a, s => .finished a s
  | read next, s => (next s).run s
  | write s next, _ => next.run s
  | await pass wake next, s =>
    if pass s then next.run s else .parked (wake s) (await pass wake next) s

end Activity

/-- Goes on from the place a run got to. -/
def Progress.bind {σ ω α β : Type} (p : Progress σ ω α) (f : α → Activity σ ω β) : Progress σ ω β :=
  match p with
  | .finished a s => (f a).run s
  | .parked w rest s => .parked w (rest.bind f) s

namespace Activity

variable {σ ω α β γ : Type}

/-! ## Laws -/

theorem bind_done (x : Activity σ ω α) : x.bind done = x := by
  induction x with
  | done => rfl
  | read next ih => simp only [bind, ih]
  | write s next ih => simp only [bind, ih]
  | await pass wake next ih => simp only [bind, ih]

theorem bind_assoc (x : Activity σ ω α) (f : α → Activity σ ω β) (g : β → Activity σ ω γ) :
    (x.bind f).bind g = x.bind fun a => (f a).bind g := by
  induction x with
  | done => rfl
  | read next ih => simp only [bind, ih]
  | write s next ih => simp only [bind, ih]
  | await pass wake next ih => simp only [bind, ih]

instance : LawfulMonad (Activity σ ω) := LawfulMonad.mk' _ bind_done (fun _ _ => rfl) bind_assoc

theorem run_bind (x : Activity σ ω α) (f : α → Activity σ ω β) (s : σ) :
    (x.bind f).run s = (x.run s).bind f := by
  induction x generalizing s with
  | done => rfl
  | read next ih => exact ih s s
  | write t next ih => exact ih t
  | await pass wake next ih =>
    simp only [bind, run]
    split
    · exact ih s
    · rfl

@[simp] theorem run_act (f : σ → σ × α) (s : σ) :
    (act f : Activity σ ω α).run s = .finished (f s).2 (f s).1 := rfl

end Activity
end Switchboard
