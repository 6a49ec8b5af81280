import Switchboard.Proofs.Routing

/-!
# Events of subtypes

An event whose payloads are of types that extend those of another event is
accepted wherever the other one is. The tags that a tag extends are part of its
ancestry, and a context looks there for the name it declares; the state of the
context does not depend on the event. So the first context of a service that
accepts the narrower event stands no later than the one for the wider.
-/

namespace Switchboard

/-- The types of the payloads extend those of another event, in any number of steps. -/
structure RequestEvent.Extends (e' e : RequestEvent) : Prop where
  request : e.request.typeTag ∈ e'.request.typeTag.ancestry
  response : e.response.typeTag ∈ e'.response.typeTag.ancestry

namespace Container

open Activity

section

variable {s : Store} {e e' : RequestEvent}

theorem Desk.fits_of_extends {d : Desk} (h : e'.Extends e) (hd : d.fits e = true) : d.fits e' = true := by
  unfold fits at hd ⊢
  rw [Bool.and_eq_true] at hd ⊢
  exact ⟨TypeTag.isAssignableFrom_of_mem_ancestry h.request hd.1,
    TypeTag.isAssignableFrom_of_mem_ancestry h.response hd.2⟩

theorem Store.accepts_of_extends {c : ComponentId} (h : e'.Extends e) (hc : s.accepts c e = true) :
    s.accepts c e' = true := by
  unfold accepts at hc ⊢
  rw [Bool.and_eq_true, Option.any_eq_true] at hc ⊢
  obtain ⟨hstate, d, hd, hfits⟩ := hc
  exact ⟨hstate, d, hd, Desk.fits_of_extends h hfits⟩

/-- Where a context of a service accepts an event, there is a first one, and it stands no later. -/
theorem Store.exists_acceptsAt_le {service c : ComponentId} {n : Nat} (hc : (s.childIds service)[n]? = some c)
    (ha : s.Accepting c e) : ∃ m ≤ n, ∃ b, s.AcceptsAt service e m b := by
  induction n using Nat.strongRecOn generalizing c with
  | ind n ih =>
    by_cases hearlier : ∃ m < n, ∃ b, (s.childIds service)[m]? = some b ∧ s.Accepting b e
    · obtain ⟨m, hm, b, hb, hacc⟩ := hearlier
      obtain ⟨k, hk, first⟩ := ih m hm hb hacc
      exact ⟨k, by omega, first⟩
    · exact ⟨n, Nat.le_refl n, c, hc, ha, fun m hm b hb hacc => hearlier ⟨m, hm, b, hb, hacc⟩⟩

end

/-- Acceptance is monotone under subtyping. Whatever the contexts of a service and their states, each
that accepts an event accepts every event of subtypes; the first to accept that one stands where the
first for the other stands or before, and is the one that the service hands it to. -/
theorem extending_event_accepted {s : Store} {e e' : RequestEvent} (h : e'.Extends e) :
    (∀ c, s.accepts c e = true → s.accepts c e' = true) ∧
    ∀ service n c, s.AcceptsAt service e n c → ∃ m c', m ≤ n ∧ s.AcceptsAt service e' m c' ∧
      ∀ rely own out t, Runs rely (dispatchService service e') s own out t ↔
        Runs rely (dispatchContext c' e') s own out t := by
  have hall : ∀ c, s.accepts c e = true → s.accepts c e' = true := fun c => Store.accepts_of_extends h
  refine ⟨hall, fun service n c hc => ?_⟩
  have ha : s.Accepting c e' := Store.accepts_iff.1 (hall c (Store.accepts_iff.2 hc.accepting))
  obtain ⟨m, hm, c', hc'⟩ := Store.exists_acceptsAt_le hc.stands ha
  exact ⟨m, c', hm, hc', fun rely own out t => runs_dispatchService hc'⟩

/-- A service that has one context for greetings, and after it one for texts of any kind. -/
def sampleLobby : Store where
  board := { managers := ["lobby", "greetings", "texts"].map fun n => { name := n, state := .started } }
  components := ⟨[
    { kind := .service, children := [("greetings", 1), ("texts", 2)] },
    { kind := .context { request := Payload.greetingTag, response := Payload.replyTag } },
    { kind := .context { request := Payload.textTag, response := .any } }]⟩

def sampleGreeting : RequestEvent where
  request := .greeting "you"
  response := .reply ""

/-- A text goes to the second context, and a greeting to the first. -/
theorem extending_event_accepted_sample :
    sampleGreeting.Extends sampleEvent ∧ sampleLobby.AcceptsAt 0 sampleEvent 1 2 ∧
    ∃ m c, m ≤ 1 ∧ sampleLobby.AcceptsAt 0 sampleGreeting m c := by
  have hext : sampleGreeting.Extends sampleEvent := ⟨by decide, by decide⟩
  have hfirst : sampleLobby.AcceptsAt 0 sampleEvent 1 2 := by
    refine ⟨rfl, Store.accepts_iff.1 rfl, fun m hm b hb hacc => ?_⟩
    obtain rfl : m = 0 := by omega
    obtain rfl : 1 = b := Option.some.inj hb
    exact absurd (Store.accepts_iff.2 hacc) (by decide)
  obtain ⟨m, c, hm, hc, -⟩ := (extending_event_accepted hext).2 0 1 2 hfirst
  exact ⟨hext, hfirst, m, c, hm, hc⟩

end Container
end Switchboard
