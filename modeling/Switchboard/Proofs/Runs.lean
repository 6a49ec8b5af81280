import Switchboard.Activity

/-!
# Runs among others

`Runs rely x s own a t`: the activity `x`, begun in `s`, ends with `a` in `t`.
Wherever it awaits, others may turn the state into any that `rely` allows; `own`
are the writes that the activity made itself, as states before and after, in
their order. `Ensures rely x Q s` says that every such run ends with `Q`, and
`Guarantees rely G x` that each own write is one that `G` allows. `Completes x Q s`
says of an activity that is left alone that it comes to its end, and with `Q`. The
lemmas take an activity apart along `bind`.
-/

namespace Switchboard.Activity

variable {σ ω α β : Type}

inductive Runs (rely : σ → σ → Prop) : Activity σ ω α → σ → List (σ × σ) → α → σ → Prop where
  | done (a : α) (s : σ) : Runs rely (.done a) s [] a s
  | read {next : σ → Activity σ ω α} {s t : σ} {own : List (σ × σ)} {a : α} :
      Runs rely (next s) s own a t → Runs rely (.read next) s own a t
  | write {u : σ} {next : Activity σ ω α} {s t : σ} {own : List (σ × σ)} {a : α} :
      Runs rely next u own a t → Runs rely (.write u next) s ((s, u) :: own) a t
  | await {pass : σ → Bool} {wake : σ → ω} {next : Activity σ ω α} {s u t : σ}
      {own : List (σ × σ)} {a : α} : rely s u → pass u = true → Runs rely next u own a t →
      Runs rely (.await pass wake next) s own a t

/-- The others may do anything. -/
def anything (_ _ : σ) : Prop := True

/-- Where the others may do more, there are more runs. -/
theorem Runs.mono {rely rely' : σ → σ → Prop} (h : ∀ s t, rely s t → rely' s t)
    {x : Activity σ ω α} {s t : σ} {own : List (σ × σ)} {a : α} (hr : Runs rely x s own a t) :
    Runs rely' x s own a t := by
  induction hr with
  | done a s => exact .done a s
  | read _ ih => exact .read ih
  | write _ ih => exact .write ih
  | await hu hp _ ih => exact .await (h _ _ hu) hp ih

/-- The writes of an activity that nobody interferes with. -/
def writes : Activity σ ω α → σ → List (σ × σ)
  | done _, _ => []
  | read next, s => (next s).writes s
  | write t next, s => (s, t) :: next.writes t
  | await _ _ next, s => next.writes s

/-- An activity that nobody interferes with is among the runs. -/
theorem Runs.of_run_writes {rely : σ → σ → Prop} (refl : ∀ s, rely s s) {x : Activity σ ω α}
    {s t : σ} {a : α} (h : x.run s = .finished a t) : Runs rely x s (x.writes s) a t := by
  induction x generalizing s with
  | done b =>
    simp only [run, Progress.finished.injEq] at h
    obtain ⟨rfl, rfl⟩ := h
    exact .done b s
  | read next ih => exact .read (ih s h)
  | write u next ih => exact .write (ih h)
  | await pass wake next ih =>
    simp only [run] at h
    split at h
    · rename_i hp
      exact .await (refl s) hp (ih h)
    · cases h

theorem Runs.of_run {rely : σ → σ → Prop} (refl : ∀ s, rely s s) {x : Activity σ ω α} {s t : σ}
    {a : α} (h : x.run s = .finished a t) : ∃ own, Runs rely x s own a t :=
  ⟨_, of_run_writes refl h⟩

/-- Left alone, an activity has no other run than the one that it makes. -/
theorem Runs.run_eq {x : Activity σ ω α} {s t : σ} {own : List (σ × σ)} {a : α} (h : Runs Eq x s own a t) :
    x.run s = .finished a t := by
  induction h with
  | done a s => rfl
  | read _ ih => exact ih
  | write _ ih => exact ih
  | await hu hp _ ih =>
    subst hu
    rw [run, if_pos hp]
    exact ih

/-- Looking at the state is no step of its own. -/
theorem runs_get_bind {rely : σ → σ → Prop} {f : σ → Activity σ ω α} {s t : σ} {own : List (σ × σ)}
    {a : α} : Runs rely (get >>= f) s own a t ↔ Runs rely (f s) s own a t := by
  show Runs rely (.read f) s own a t ↔ _
  constructor
  · rintro (_ | h)
    exact h
  · exact .read

theorem runs_pure {rely : σ → σ → Prop} {s t : σ} {own : List (σ × σ)} {a b : α} :
    Runs rely (pure a : Activity σ ω α) s own b t ↔ own = [] ∧ b = a ∧ t = s := by
  constructor
  · rintro (_ | _)
    exact ⟨rfl, rfl, rfl⟩
  · rintro ⟨rfl, rfl, rfl⟩
    exact .done b t

/-- What is made of the outcome is no step. -/
theorem runs_map {rely : σ → σ → Prop} {x : Activity σ ω α} {f : α → β} {s t : σ} {own : List (σ × σ)}
    {b : β} : Runs rely (f <$> x) s own b t ↔ ∃ a, Runs rely x s own a t ∧ f a = b := by
  show Runs rely (x.bind fun a => .done (f a)) s own b t ↔ _
  constructor
  · intro h
    induction x generalizing s own with
    | done a =>
      cases h
      exact ⟨a, .done a _, rfl⟩
    | read next ih =>
      cases h with
      | read h => exact (ih _ h).imp fun _ hr => ⟨.read hr.1, hr.2⟩
    | write u next ih =>
      cases h with
      | write h => exact (ih h).imp fun _ hr => ⟨.write hr.1, hr.2⟩
    | await pass wake next ih =>
      cases h with
      | await hu hp h => exact (ih h).imp fun _ hr => ⟨.await hu hp hr.1, hr.2⟩
  · rintro ⟨a, h, rfl⟩
    induction h with
    | done a s => exact .done _ s
    | read _ ih => exact .read ih
    | write _ ih => exact .write ih
    | await hu hp _ ih => exact .await hu hp ih

/-! ## What every run ends with -/

def Ensures (rely : σ → σ → Prop) (x : Activity σ ω α) (Q : List (σ × σ) → α → σ → Prop) (s : σ) :
    Prop :=
  ∀ own a t, Runs rely x s own a t → Q own a t

section

variable {rely : σ → σ → Prop} {Q R : List (σ × σ) → α → σ → Prop} {s : σ}

theorem Ensures.mono {x : Activity σ ω α} (h : Ensures rely x Q s)
    (k : ∀ own a t, Q own a t → R own a t) : Ensures rely x R s :=
  fun own a t hr => k own a t (h own a t hr)

/-- What holds whatever the others do holds where they do less. -/
theorem Ensures.weaken {rely' : σ → σ → Prop} {x : Activity σ ω α} (h : Ensures rely' x Q s)
    (hrely : ∀ s t, rely s t → rely' s t) : Ensures rely x Q s :=
  fun own a t hr => h own a t (hr.mono hrely)

/-- What holds among others holds of an activity that is left alone. -/
theorem Ensures.alone {x : Activity σ ω α} (h : Ensures rely x Q s) (refl : ∀ s, rely s s) :
    Ensures Eq x Q s := h.weaken fun s _ hst => hst ▸ refl s

theorem Ensures.of_forall {x : Activity σ ω α} (h : ∀ own a t, Q own a t) : Ensures rely x Q s :=
  fun own a t _ => h own a t

theorem Ensures.and {x : Activity σ ω α} (h : Ensures rely x Q s) (k : Ensures rely x R s) :
    Ensures rely x (fun own a t => Q own a t ∧ R own a t) s :=
  fun own a t hr => ⟨h own a t hr, k own a t hr⟩

theorem ensures_done {a : α} : Ensures rely (.done a : Activity σ ω α) Q s ↔ Q [] a s := by
  constructor
  · intro h
    exact h [] a s (.done a s)
  · rintro h own b t (_ | _)
    exact h

theorem ensures_read {next : σ → Activity σ ω α} :
    Ensures rely (.read next) Q s ↔ Ensures rely (next s) Q s := by
  constructor
  · intro h own a t hr
    exact h own a t (.read hr)
  · intro h own a t hr
    cases hr with
    | read hr => exact h own a t hr

theorem ensures_write {u : σ} {next : Activity σ ω α} :
    Ensures rely (.write u next) Q s ↔ Ensures rely next (fun own => Q ((s, u) :: own)) u := by
  constructor
  · intro h own a t hr
    exact h _ a t (.write hr)
  · intro h own a t hr
    cases hr with
    | write hr => exact h _ a t hr

theorem ensures_await {pass : σ → Bool} {wake : σ → ω} {next : Activity σ ω α} :
    Ensures rely (.await pass wake next) Q s ↔
      ∀ u, rely s u → pass u = true → Ensures rely next Q u := by
  constructor
  · intro h u hu hp own a t hr
    exact h own a t (.await hu hp hr)
  · intro h own a t hr
    cases hr with
    | await hu hp hr => exact h _ hu hp own a t hr

@[simp] theorem ensures_bind {x : Activity σ ω β} {f : β → Activity σ ω α} :
    Ensures rely (x >>= f) Q s ↔
      Ensures rely x (fun own b u => Ensures rely (f b) (fun own' => Q (own ++ own')) u) s := by
  show Ensures rely (x.bind f) Q s ↔ _
  induction x generalizing s Q with
  | done b => simp only [bind, ensures_done, List.nil_append]
  | read next ih => simp only [bind, ensures_read, ih]
  | write u next ih => simp only [bind, ensures_write, ih, List.cons_append]
  | await pass wake next ih => simp only [bind, ensures_await, ih]

@[simp] theorem ensures_pure {a : α} : Ensures rely (pure a : Activity σ ω α) Q s ↔ Q [] a s :=
  ensures_done

@[simp] theorem ensures_map {x : Activity σ ω β} {f : β → α} :
    Ensures rely (f <$> x) Q s ↔ Ensures rely x (fun own b t => Q own (f b) t) s := by
  rw [← bind_pure_comp, ensures_bind]
  simp only [ensures_pure, List.append_nil]

@[simp] theorem ensures_get {Q : List (σ × σ) → σ → σ → Prop} :
    Ensures rely (get : Activity σ ω σ) Q s ↔ Q [] s s := by
  rw [get, ensures_read, ensures_done]

@[simp] theorem ensures_act {f : σ → σ × α} :
    Ensures rely (act f : Activity σ ω α) Q s ↔ Q [(s, (f s).1)] (f s).2 (f s).1 := by
  rw [act, ensures_read, ensures_write, ensures_done]

@[simp] theorem ensures_modify {f : σ → σ} {Q : List (σ × σ) → Unit → σ → Prop} :
    Ensures rely (modify f : Activity σ ω Unit) Q s ↔ Q [(s, f s)] () (f s) := by
  rw [modify, ensures_read, ensures_write, ensures_done]

@[simp] theorem ensures_waitUntil {pass : σ → Bool} {wake : σ → ω}
    {Q : List (σ × σ) → Unit → σ → Prop} :
    Ensures rely (waitUntil pass wake : Activity σ ω Unit) Q s ↔
      ∀ u, rely s u → pass u = true → Q [] () u := by
  simp only [waitUntil, ensures_await, ensures_done]

@[simp] theorem ensures_yield {wake : ω} {Q : List (σ × σ) → Unit → σ → Prop} :
    Ensures rely (yield wake : Activity σ ω Unit) Q s ↔ ∀ u, rely s u → Q [] () u := by
  simp only [yield, ensures_await, ensures_done, true_implies]

end

/-! ## What every own write respects -/

def Guarantees (rely G : σ → σ → Prop) (x : Activity σ ω α) : Prop :=
  ∀ s, Ensures rely x (fun own _ _ => ∀ w ∈ own, G w.1 w.2) s

section

variable {rely G : σ → σ → Prop}

theorem Guarantees.mono {H : σ → σ → Prop} {x : Activity σ ω α} (hx : Guarantees rely G x)
    (h : ∀ s t, G s t → H s t) : Guarantees rely H x :=
  fun s => (hx s).mono fun _ _ _ hw w hm => h _ _ (hw w hm)

/-- What every write respects and the others respect, a whole run respects. -/
theorem Runs.frame {x : Activity σ ω α} {s t : σ} {own : List (σ × σ)} {a : α}
    (hr : Runs rely x s own a t) (refl : ∀ s, G s s) (trans : ∀ s t u, G s t → G t u → G s u)
    (others : ∀ s t, rely s t → G s t) (hw : ∀ w ∈ own, G w.1 w.2) : G s t := by
  induction hr with
  | done a s => exact refl s
  | read _ ih => exact ih hw
  | write _ ih =>
    obtain ⟨h₁, h₂⟩ := List.forall_mem_cons.1 hw
    exact trans _ _ _ h₁ (ih h₂)
  | await hu _ _ ih => exact trans _ _ _ (others _ _ hu) (ih hw)

theorem Guarantees.frame {x : Activity σ ω α} (hx : Guarantees rely G x) (refl : ∀ s, G s s)
    (trans : ∀ s t u, G s t → G t u → G s u) (others : ∀ s t, rely s t → G s t) (s : σ) :
    Ensures rely x (fun _ _ t => G s t) s :=
  fun own a t hr => hr.frame refl trans others (hx s own a t hr)

theorem guarantees_pure (a : α) : Guarantees rely G (pure a : Activity σ ω α) := by
  intro s
  simp

theorem Guarantees.bind {x : Activity σ ω β} {f : β → Activity σ ω α} (hx : Guarantees rely G x)
    (hf : ∀ b, Guarantees rely G (f b)) : Guarantees rely G (x >>= f) := by
  intro s
  rw [ensures_bind]
  refine (hx s).mono fun own b u hw => (hf b u).mono fun own' a t hw' => ?_
  exact List.forall_mem_append.2 ⟨hw, hw'⟩

theorem guarantees_get : Guarantees rely G (get : Activity σ ω σ) := by
  intro s
  simp

theorem guarantees_act {f : σ → σ × α} (h : ∀ s, G s (f s).1) :
    Guarantees rely G (act f : Activity σ ω α) := by
  intro s
  simpa using h s

theorem guarantees_modify {f : σ → σ} (h : ∀ s, G s (f s)) :
    Guarantees rely G (modify f : Activity σ ω Unit) := by
  intro s
  simpa using h s

theorem guarantees_waitUntil (pass : σ → Bool) (wake : σ → ω) :
    Guarantees rely G (waitUntil pass wake : Activity σ ω Unit) := by
  intro s
  simp

theorem guarantees_yield (wake : ω) : Guarantees rely G (yield wake : Activity σ ω Unit) := by
  intro s
  simp

end

/-! ## Runs that come to their end -/

def Completes (x : Activity σ ω α) (Q : α → σ → Prop) (s : σ) : Prop :=
  ∃ a t, x.run s = .finished a t ∧ Q a t

section

variable {Q R : α → σ → Prop} {s : σ}

theorem Completes.mono {x : Activity σ ω α} (h : Completes x Q s) (k : ∀ a t, Q a t → R a t) :
    Completes x R s := by
  obtain ⟨a, t, hr, hq⟩ := h
  exact ⟨a, t, hr, k a t hq⟩

/-- What every run ends with, a run ends with that comes to its end. -/
theorem Completes.ensures {rely : σ → σ → Prop} (refl : ∀ s, rely s s) {x : Activity σ ω α}
    {P : List (σ × σ) → α → σ → Prop} (h : Completes x Q s) (k : Ensures rely x P s) :
    Completes x (fun a t => Q a t ∧ P (x.writes s) a t) s := by
  obtain ⟨a, t, hr, hq⟩ := h
  exact ⟨a, t, hr, hq, k _ a t (Runs.of_run_writes refl hr)⟩

/-- Left alone, an activity that comes to its end has no run that ends otherwise. -/
theorem Completes.of_runs {x : Activity σ ω α} {own : List (σ × σ)} {a : α} {t : σ} (h : Completes x Q s)
    (hr : Runs Eq x s own a t) : Q a t := by
  obtain ⟨b, u, hu, hq⟩ := h
  obtain ⟨rfl, rfl⟩ := Progress.finished.inj (hr.run_eq.symm.trans hu)
  exact hq

@[simp] theorem completes_bind {x : Activity σ ω β} {f : β → Activity σ ω α} :
    Completes (x >>= f) Q s ↔ Completes x (fun b u => Completes (f b) Q u) s := by
  have hrun : (x >>= f).run s = (x.run s).bind f := run_bind x f s
  simp only [Completes, hrun]
  cases x.run s with
  | finished b u =>
    constructor
    · exact fun h => ⟨b, u, rfl, h⟩
    · rintro ⟨_, _, ⟨⟩, h⟩
      exact h
  | parked w rest u =>
    constructor
    · rintro ⟨_, _, ⟨⟩, -⟩
    · rintro ⟨_, _, ⟨⟩, -⟩

@[simp] theorem completes_pure {a : α} : Completes (pure a : Activity σ ω α) Q s ↔ Q a s := by
  constructor
  · rintro ⟨_, _, ⟨⟩, h⟩
    exact h
  · exact fun h => ⟨a, s, rfl, h⟩

@[simp] theorem completes_act {f : σ → σ × α} :
    Completes (act f : Activity σ ω α) Q s ↔ Q (f s).2 (f s).1 := by
  constructor
  · rintro ⟨_, _, ⟨⟩, h⟩
    exact h
  · exact fun h => ⟨_, _, rfl, h⟩

@[simp] theorem completes_get {Q : σ → σ → Prop} :
    Completes (get : Activity σ ω σ) Q s ↔ Q s s := by
  constructor
  · rintro ⟨_, _, ⟨⟩, h⟩
    exact h
  · exact fun h => ⟨_, _, rfl, h⟩

@[simp] theorem completes_modify {f : σ → σ} {Q : Unit → σ → Prop} :
    Completes (modify f : Activity σ ω Unit) Q s ↔ Q () (f s) := by
  constructor
  · rintro ⟨_, _, ⟨⟩, h⟩
    exact h
  · exact fun h => ⟨_, _, rfl, h⟩

@[simp] theorem completes_yield {wake : ω} {Q : Unit → σ → Prop} :
    Completes (yield wake : Activity σ ω Unit) Q s ↔ Q () s := by
  constructor
  · rintro ⟨_, _, ⟨⟩, h⟩
    exact h
  · exact fun h => ⟨_, _, rfl, h⟩

/-- A wait ends where there is nothing to wait for. -/
theorem completes_waitUntil {pass : σ → Bool} {wake : σ → ω} {Q : Unit → σ → Prop}
    (hp : pass s = true) (h : Q () s) : Completes (waitUntil pass wake : Activity σ ω Unit) Q s :=
  ⟨(), s, by rw [waitUntil, run, if_pos hp, run], h⟩

end

end Switchboard.Activity
