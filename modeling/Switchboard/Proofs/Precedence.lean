import Mathlib.Data.List.Nodup
import Switchboard.Proofs.Routing
import Switchboard.Proofs.Transfer

/-!
# Precedence

The contexts of a service in their order, which decides which of them is handed an
event. `KeepsPrecedence s p` says what a change of registries makes of the entries
of `p`: a child under a new name comes last, one under a name that is taken stands
in the place of the other, one that leaves is cut out, and a refused one is not
taken in. Two entries that stay keep their order, over any stretch of moves.
-/

namespace Switchboard

namespace Directory

variable {α : Type} {d : Directory α}

/-- An entry is taken in: under a new name it comes last, and otherwise it stands in the place of
the entry that had its name. -/
structure TakesIn (d : Directory α) (name : String) (a : α) (d' : Directory α) : Prop where
  last : name ∉ d.names → d' = d ++ [(name, a)]
  inPlace : ∀ before old after, d = before ++ (name, old) :: after → d' = before ++ (name, a) :: after

/-- An entry is cut out, if it is there, and nothing else. -/
structure Loses (d : Directory α) (gone : String × α → Prop) (d' : Directory α) : Prop where
  cut : ∀ before e after, d = before ++ e :: after → gone e → d' = before ++ after
  spared : (∀ e ∈ d, ¬ gone e) → d' = d

theorem not_mem_of_nodup_append {before after : Directory α} {e : String × α}
    (h : (names (before ++ e :: after)).Nodup) : e.1 ∉ names before := by
  rw [names, List.map_append, List.map_cons] at h
  intro hm
  exact (List.nodup_append.1 h).2.2 e.1 hm e.1 List.mem_cons_self rfl

theorem takesIn_put (h : (names d).Nodup) (name : String) (a : α) : d.TakesIn name a (d.put name a) where
  last hn := put_eq_append hn a
  inPlace before old after hd := by
    subst hd
    exact put_append_cons (not_mem_of_nodup_append h) a old after

theorem loses_erase (h : (names d).Nodup) (name : String) : d.Loses (fun e => e.1 = name) (d.erase name) where
  cut before e after hd he := by
    subst hd he
    exact erase_append_cons (not_mem_of_nodup_append h) e.2 after
  spared hn := by
    refine erase_eq_self (find?_eq_none fun hm => ?_)
    obtain ⟨e, he, rfl⟩ := List.mem_map.1 hm
    exact hn e he rfl

end Directory

namespace Container

open Activity

section

variable {name : ComponentId → String} {d : Directory ComponentId} {c : ComponentId}

theorem Filed.names_eq (h : Filed name d) : d.names = d.values.map name := by
  rw [Directory.names, Directory.values, List.map_map]
  exact List.map_congr_left fun e he => h.named e.1 e.2 he

theorem Filed.loses_filter (h : Filed name d) (c : ComponentId) :
    d.Loses (fun e => e.2 = c) (d.filter fun e => e.2 ≠ c) where
  cut before e after hd he := by
    have hvalues : (Directory.values d).Nodup := List.Nodup.of_map name (h.names_eq ▸ h.nodup)
    subst hd he
    rw [Directory.values, List.map_append, List.map_cons] at hvalues
    obtain ⟨-, hafter, happart⟩ := List.nodup_append.1 hvalues
    have hb : ∀ b ∈ before, b.2 ≠ e.2 := fun b hb =>
      happart b.2 (List.mem_map_of_mem hb) e.2 List.mem_cons_self
    have ha : ∀ a ∈ after, a.2 ≠ e.2 := fun a ha heq =>
      (List.nodup_cons.1 hafter).1 (heq ▸ List.mem_map_of_mem ha)
    rw [List.filter_append, List.filter_cons_of_neg (by simp),
      List.filter_eq_self.2 (by simpa using hb), List.filter_eq_self.2 (by simpa using ha)]
  spared hn := List.filter_eq_self.2 (by simpa using hn)

end

namespace Store

/-- The children of a component with their names. -/
def entries (s : Store) (p : ComponentId) : Directory ComponentId := (s.component p).children

/-- What changes of registries make of the entries of a component. -/
structure KeepsPrecedence (s : Store) (p : ComponentId) : Prop where
  named : (s.entries p).names = (s.childIds p).map s.name
  nodup : (s.entries p).names.Nodup
  /-- A child that is added is taken in. -/
  added : ∀ c old, (s.add p c).2 = .ok old → (s.entries p).TakesIn (s.name c) c ((s.add p c).1.entries p)
  /-- A child that is refused is not. -/
  refused : ∀ c f, (s.add p c).2 = .error f → (s.add p c).1.entries p = s.entries p
  /-- A child that is added elsewhere, with whatever outcome, is cut out. -/
  moved : ∀ q c, q ≠ p → (s.entries p).Loses (fun e => e.2 = c) ((s.add q c).1.entries p)
  /-- A child that is removed is cut out. -/
  removed : ∀ n, (s.entries p).Loses (fun e => e.1 = n) ((s.remove p n).1.entries p)
  apart : ∀ q n, q ≠ p → (s.remove q n).1.entries p = s.entries p

variable {s t : Store} {p q c : ComponentId}

theorem lt_of_mem_entries {e : String × ComponentId} (h : e ∈ s.entries p) : p < s.components.size := by
  apply Nat.lt_of_not_le
  intro hle
  rw [entries, component_of_le hle] at h
  cases h

theorem Unmoved.entries (h : Unmoved s t) (p : ComponentId) : t.entries p = s.entries p := h.children p

/-! ## Giving up, claiming and putting in -/

theorem unmoved_claim (s : Store) (q c : ComponentId) : Unmoved s (s.claim q c).1 := by
  rw [claim_announces]
  split
  · exact .refl s
  · exact .refl s
  next slot _ => exact (s.unmoved_setOwner c slot).trans (unmoved_announceOwner _ c none _)

theorem Owns.owner? (h : s.Owns p c) (hp : s.isAlive p = true) :
    ∃ o, s.owner? c = some o ∧ o.parent = p := by
  obtain ⟨o, ho, rfl⟩ := OwnerSlot.isOwnedBy_iff.1 h
  exact ⟨o, OwnerSlot.live_eq_some_iff.2 ⟨ho, hp⟩, rfl⟩

/-- Before a child is claimed, it is cut out wherever else it is. -/
theorem Consistent.entries_detachElsewhere (h : s.Consistent) (hp : s.isAlive p = true) (q c : ComponentId) :
    (s.detachElsewhere q c).entries p =
      if p = q then s.entries p else (s.entries p).filter fun e => e.2 ≠ c := by
  have hfree : ¬ s.Owns p c → (s.entries p).filter (fun e => e.2 ≠ c) = s.entries p := by
    intro hn
    refine List.filter_eq_self.2 fun e he => ?_
    have hne : e.2 ≠ c := by
      rintro rfl
      exact hn ((h.owned p hp e.2).1 (List.mem_map.2 ⟨e, he, rfl⟩))
    simpa using hne
  rcases detachElsewhere_cases h q c with ⟨o, ho, hoq, hg⟩ | ⟨hsole, hsame⟩
  · rw [entries, hg.registries]
    by_cases hpo : p = o.parent
    · rw [if_pos hpo, if_neg (hpo ▸ hoq), entries]
    · rw [if_neg hpo]
      split
      · rfl
      · refine (hfree fun hown => ?_).symm
        obtain ⟨o', ho', rfl⟩ := hown.owner? hp
        exact hpo (Option.some.inj (ho'.symm.trans ho) ▸ rfl)
  · rw [hsame]
    split
    · rfl
    next hpq =>
      refine (hfree fun hown => ?_).symm
      obtain ⟨o, ho, rfl⟩ := hown.owner? hp
      exact hpq (hsole o ho)

/-- An add is a claim after the release elsewhere, and where the claim is granted the child is put in. -/
theorem add_cases (s : Store) (q c : ComponentId) :
    (∃ f, (s.add q c).2 = .error f ∧ Unmoved (s.detachElsewhere q c) (s.add q c).1) ∨
    ∃ old t, (s.add q c).2 = .ok old ∧ Unmoved (s.detachElsewhere q c) t ∧
      Unmoved (t.putChild q c) (s.add q c).1 := by
  unfold add
  have hu := (s.detachElsewhere q c).unmoved_claim q c
  cases hc : (s.detachElsewhere q c).claim q c with
  | mk t out =>
    rw [hc] at hu
    cases out with
    | error f => exact .inl ⟨f, rfl, hu⟩
    | ok b =>
      dsimp only
      cases t.rival? q c with
      | none => exact .inr ⟨none, t, rfl, hu, .refl _⟩
      | some old => exact .inr ⟨some old, t, rfl, hu, (release_eq _ q old).1⟩

theorem entries_updateComponent (s : Store) (q p : ComponentId) (f : Component → Component) :
    (s.updateComponent q f).entries p =
      if q = p ∧ q < s.components.size then (f (s.component p)).children else s.entries p := by
  unfold entries
  rw [component_updateComponent]
  split <;> rfl

/-! ## What becomes of the entries -/

section

variable (h : s.Consistent) (hp : s.isAlive p = true)
include h hp

theorem Consistent.entries_add_elsewhere (hqp : q ≠ p) (c : ComponentId) :
    (s.add q c).1.entries p = (s.entries p).filter fun e => e.2 ≠ c := by
  have hd := h.entries_detachElsewhere hp q c
  rw [if_neg (Ne.symm hqp)] at hd
  rcases s.add_cases q c with ⟨f, -, hu⟩ | ⟨old, t, -, hu, hput⟩
  · rw [hu.entries, hd]
  · rw [hput.entries, putChild, entries_updateComponent, if_neg fun hh => hqp hh.1, hu.entries, hd]

theorem Consistent.entries_add_refused {f : Fault} (hf : (s.add p c).2 = .error f) :
    (s.add p c).1.entries p = s.entries p := by
  have hd := h.entries_detachElsewhere hp p c
  rw [if_pos rfl] at hd
  rcases s.add_cases p c with ⟨-, -, hu⟩ | ⟨old, t, hok, -, -⟩
  · rw [hu.entries, hd]
  · rw [hok] at hf
    cases hf

theorem Consistent.entries_add (hmade : p < s.components.size) {old : Option ComponentId}
    (hok : (s.add p c).2 = .ok old) : (s.add p c).1.entries p = (s.entries p).put (s.name c) c := by
  have hd := h.entries_detachElsewhere hp p c
  rw [if_pos rfl] at hd
  rcases s.add_cases p c with ⟨f, hf, -⟩ | ⟨old', t, -, hu, hput⟩
  · rw [hf] at hok
    cases hok
  · have hsize : p < t.components.size := by
      rw [hu.size, size_detachElsewhere]
      exact hmade
    have hname : t.name c = s.name c :=
      (name_eq_of_names hu.names c).trans (congrFun (h.name_detachElsewhere p c) c)
    rw [hput.entries, putChild, entries_updateComponent, if_pos ⟨rfl, hsize⟩, hname, ← hd, ← hu.entries]
    rfl

end

theorem entries_remove (s : Store) (p q : ComponentId) (n : String) :
    (s.remove q n).1.entries p = if p = q then (s.entries p).erase n else s.entries p := by
  unfold remove
  cases hc : s.child? q n with
  | none =>
    by_cases hp : p = q
    · subst hp
      rw [if_pos rfl]
      exact (Directory.erase_eq_self hc).symm
    · rw [if_neg hp]
  | some child =>
    dsimp only
    rw [(release_eq _ q child).1.entries, entries_updateComponent]
    by_cases hp : p = q
    · subst hp
      have hlt : p < s.components.size := lt_of_mem_entries (Directory.mem_of_find? hc)
      rw [if_pos ⟨rfl, hlt⟩, if_pos rfl]
      rfl
    · rw [if_neg fun hh => hp hh.1.symm, if_neg hp]

theorem entries_bury (s : Store) (c p : ComponentId) : (s.bury c).entries p = s.entries p :=
  updateComponent_keeps Component.children rfl p

theorem entries_sweep (s : Store) (roots : List ComponentId) (holds : List (ComponentId × ComponentId))
    (p : ComponentId) : (s.sweep roots holds).entries p = s.entries p := by
  refine List.foldlRecOn (List.range s.components.size) _
    (motive := fun t : Store => t.entries p = s.entries p) rfl fun t ht c _ => ?_
  split
  · exact (t.entries_bury c p).trans ht
  · exact ht

theorem entries_settle (s : Store) (roots : List ComponentId) (holds : List (ComponentId × ComponentId))
    (p : ComponentId) : (s.settle roots holds).entries p = s.entries p := by
  unfold settle
  generalize s.components.size = n
  induction n generalizing s with
  | zero => rfl
  | succ n ih => exact (ih (s.sweep roots holds)).trans (s.entries_sweep roots holds p)

/-- Where registries and slots agree, a component keeps the precedence of its entries. -/
theorem Consistent.keepsPrecedence (h : s.Consistent) (hmade : p < s.components.size)
    (hp : s.isAlive p = true) : s.KeepsPrecedence p where
  named := (h.filed p hp).names_eq
  nodup := (h.filed p hp).nodup
  added c old hok := by
    rw [h.entries_add hp hmade hok]
    exact Directory.takesIn_put (h.filed p hp).nodup (s.name c) c
  refused c f hf := h.entries_add_refused hp hf
  moved q c hqp := by
    rw [h.entries_add_elsewhere hp hqp c]
    exact (h.filed p hp).loses_filter c
  removed n := by
    rw [entries_remove, if_pos rfl]
    exact Directory.loses_erase (h.filed p hp).nodup n
  apart q n hqp := by rw [entries_remove, if_neg (Ne.symm hqp)]

end Store

/-! ## Stretches of moves -/

section

variable {s : Store} {p : ComponentId}

/-- Whatever a move does, entries that stay keep their order. -/
theorem Store.Consistent.keepsOrder (h : s.Consistent) (hmade : p < s.components.size)
    (hp : s.isAlive p = true) (m : Move) : (s.entries p).KeepsOrder ((m.apply s).entries p) := by
  have hnodup : (s.entries p).names.Nodup := (h.filed p hp).nodup
  cases m with
  | add q c =>
    show (s.entries p).KeepsOrder ((if q < s.components.size ∧ c < s.components.size then (s.add q c).1
      else s).entries p)
    split
    · by_cases hqp : q = p
      · subst hqp
        cases hout : (s.add q c).2 with
        | error f =>
          rw [h.entries_add_refused hp hout]
          exact Directory.keepsOrder_refl _
        | ok old =>
          rw [h.entries_add hp hmade hout]
          exact Directory.keepsOrder_put hnodup (s.name c) c
      · rw [h.entries_add_elsewhere hp hqp c]
        exact Directory.keepsOrder_filter _ _
    · exact Directory.keepsOrder_refl _
  | remove q n =>
    show (s.entries p).KeepsOrder ((s.remove q n).1.entries p)
    rw [Store.entries_remove]
    split
    · exact Directory.keepsOrder_erase hnodup n
    · exact Directory.keepsOrder_refl _
  | make name kind =>
    have hsame : ((s.addComponent name kind).1.entries p) = s.entries p :=
      Store.addComponent_keeps Component.children name kind rfl p
    exact hsame ▸ Directory.keepsOrder_refl _
  | bury c => exact s.entries_bury c p ▸ Directory.keepsOrder_refl _
  | settle roots holds => exact s.entries_settle roots holds p ▸ Directory.keepsOrder_refl _
  | desk c f =>
    have hsame : (s.updateDesk c f).entries p = s.entries p :=
      Store.updateComponent_keeps Component.children ((s.component c).updateDesk_keeps f).1 p
    exact hsame ▸ Directory.keepsOrder_refl _
  | request c target => exact Directory.keepsOrder_refl _
  | fail c => exact Directory.keepsOrder_refl _
  | subscribe c listener => exact Directory.keepsOrder_refl _
  | unsubscribe c listener => exact Directory.keepsOrder_refl _
  | beside other => exact Directory.keepsOrder_refl _

/-- Over a stretch of moves, entries that are never gone in between keep their order. -/
theorem Move.keepsOrder {a b : String × ComponentId} (later moves : List Move)
    (hstay : ∀ k ≤ later.length, (run (moves ++ later.take k)).isAlive p = true ∧
      a ∈ (run (moves ++ later.take k)).entries p ∧ b ∈ (run (moves ++ later.take k)).entries p)
    (hab : [a, b].Sublist ((run moves).entries p)) : [a, b].Sublist ((run (moves ++ later)).entries p) := by
  induction later generalizing moves with
  | nil => simpa using hab
  | cons m later ih =>
    have hrun : run (moves ++ [m]) = m.apply (run moves) := by simp [run]
    have hsplit : ∀ ms, moves ++ m :: ms = (moves ++ [m]) ++ ms := by simp
    have h₀ := hstay 0 (Nat.zero_le _)
    have h₁ := hstay 1 (by simp)
    rw [List.take_zero, List.append_nil] at h₀
    rw [List.take_succ_cons, List.take_zero, hrun] at h₁
    rw [hsplit]
    refine ih (moves ++ [m]) (fun k hk => ?_) ?_
    · rw [← hsplit, ← List.take_succ_cons]
      exact hstay (k + 1) (Nat.succ_le_succ hk)
    · rw [hrun]
      exact (run_consistent moves).keepsOrder (Store.lt_of_mem_entries h₀.2.1) h₀.1 m a b h₁.2.1 h₁.2.2
        hab

end

/-- Precedence survives all changes of registries. After any moves, carried out or refused, whatever is
added, moved or removed next leaves the entries of a live service where they are but for the one
concerned; over any further moves, two entries that stay keep their order; and what the service is
asked to dispatch goes to the first of them that accepts it and to no other. -/
theorem Move.precedence_survives (moves : List Move) {p : ComponentId}
    (hmade : p < (run moves).components.size) (hp : (run moves).isAlive p = true) :
    (run moves).KeepsPrecedence p ∧
    (∀ later a b, (∀ k ≤ later.length, (run (moves ++ later.take k)).isAlive p = true ∧
        a ∈ (run (moves ++ later.take k)).entries p ∧ b ∈ (run (moves ++ later.take k)).entries p) →
      [a, b].Sublist ((run moves).entries p) → [a, b].Sublist ((run (moves ++ later)).entries p)) ∧
    ∀ e rely own out t,
      (∀ n c, (run moves).AcceptsAt p e n c →
        (Runs rely (dispatchService p e) (run moves) own out t ↔
          Runs rely (dispatchContext c e) (run moves) own out t)) ∧
      ((∀ c ∈ (run moves).childIds p, ¬ (run moves).Accepting c e) →
        (Runs rely (dispatchService p e) (run moves) own out t ↔
          own = [] ∧ out = (e, .ok ()) ∧ t = run moves)) := by
  refine ⟨(run_consistent moves).keepsPrecedence hmade hp, fun later a b => keepsOrder later moves,
    fun e rely own out t => ⟨fun n c hc => runs_dispatchService hc, fun hn => ?_⟩⟩
  exact runs_dispatchService_of_none hn

/-- Three contexts in one service, and one more that has the name of the second. -/
def sampleShelf : List Move :=
  [.make "shelf" .service, .make "other" .service,
    .make "a" (.context { request := .any, response := .any }),
    .make "b" (.context { request := .any, response := .any }),
    .make "c" (.context { request := .any, response := .any }),
    .make "b" (.context { request := .any, response := .any }),
    .add 0 2, .add 0 3, .add 0 4]

/-- The replacement stands between the others, where the one it replaces stood. -/
theorem Move.precedence_survives_sample :
    (run sampleShelf).entries 0 = [("a", 2), ("b", 3), ("c", 4)] ∧
    ((run sampleShelf).add 0 5).1.entries 0 = [("a", 2), ("b", 5), ("c", 4)] ∧
    ((run sampleShelf).add 1 2).1.entries 0 = [("b", 3), ("c", 4)] := by
  obtain ⟨h, -⟩ := precedence_survives sampleShelf (p := 0) (by decide) rfl
  have hentries : (run sampleShelf).entries 0 = [("a", 2)] ++ ("b", 3) :: [("c", 4)] := rfl
  have hgranted : ((run sampleShelf).add 0 5).2 = .ok (some 3) := rfl
  refine ⟨hentries, (h.added 5 _ hgranted).inPlace [("a", 2)] 3 [("c", 4)] hentries, ?_⟩
  exact (h.moved 1 2 (by decide)).cut [] ("a", 2) [("b", 3), ("c", 4)] hentries rfl

end Container
end Switchboard
