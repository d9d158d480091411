import ServicePlatform.Kernel.RelayContent

/-! How much of an envelope survives the outbox. The row keeps the event name,
the aggregate, the trace and a JSON payload. It has no column for the event id
or the source, and its creation time takes the place of `occurred_at`. -/
namespace ServicePlatform

open Storage Transition

end ServicePlatform
