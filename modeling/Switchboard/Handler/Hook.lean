import Switchboard.Payload.Basic

/-!
# Capability hooks

A hook decides whether an event may reach a restricted handler, and answers the
events that may not. Both are told how often the hook was asked before. It is to
write a response, but it has the whole event in its hands, and may put another
one in its place.
-/

namespace Switchboard

structure CapabilityHook where
  admits : Nat → String → RequestEvent → Bool
  /-- The event that is given back in place of one that is refused, and whether refusing it failed. -/
  refuse : Nat → String → RequestEvent → RequestEvent × Except String Unit

namespace CapabilityHook

def allowAll : CapabilityHook where
  admits _ _ _ := true
  refuse _ _ e := (e, .ok ())

def denyAll : CapabilityHook where
  admits _ _ _ := false
  refuse _ _ e := (e, .ok ())

instance : Inhabited CapabilityHook := ⟨denyAll⟩

end CapabilityHook
end Switchboard
