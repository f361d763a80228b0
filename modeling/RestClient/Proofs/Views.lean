import RestClient.Proofs.Lockstep

/-!
# Views of worlds

Something of a world may be out of a client's sight.  If waits and exchanges come to the same in
the world that is seen, then so do whole calls.
-/

namespace RestClient
namespace Client

variable {σ τ α : Type} {client : Client} {view : World σ -> World τ}

/-- What the client waits for, exchanges and reports in the world that is seen is what is seen of
its waits, exchanges and reports. -/
structure Respects [Transport σ] [Transport τ] (client : Client) (view : World σ -> World τ) :
    Prop where
  now : forall w, (view w).now = w.now
  clock : forall w, (view w).clock = w.clock
  jitter : forall w, (view w).jitter = w.jitter
  delays : forall w, (view w).delays = w.delays
  isCanceled : forall w, (view w).isCanceled client.cancel = w.isCanceled client.cancel
  report : forall w event, (view w).report event = view (w.report event)
  paused : forall w delay, (view w).note (.paused delay) = view (w.note (.paused delay))
  wait : forall horizon target w,
    client.wait horizon target (view w) = (client.wait horizon target w).map id view
  exchange : forall horizon request attempt w,
    client.exchange horizon request attempt (view w) =
      (client.exchange horizon request attempt w).map id view

namespace Respects

variable [Transport σ] [Transport τ]

theorem lockstep (h : client.Respects view) :
    Lockstep client client (fun w w' => w' = view w) Eq where
  settings := ⟨rfl, rfl, rfl, rfl, rfl, rfl, rfl, rfl⟩
  prepare := client.preparesAlike_self
  now hw := by rw [hw, h.now]
  clock hw := by rw [hw, h.clock]
  backoff hw retry := by rw [hw, h.jitter, h.delays]
  isCanceled hw := by rw [hw, h.isCanceled]
  report hw event := by rw [hw, h.report]
  paused hw delay := by rw [hw, h.paused]
  wait := by
    intro w w' hw horizon target
    rw [hw, h.wait]
    exact ⟨_, _, _, rfl, rfl, rfl⟩
  method hrequest := by rw [hrequest]
  exchange := by
    intro w w' hw request request' hrequest horizon attempt
    rw [hw, ← hrequest, h.exchange]
    exact ⟨_, _, _, rfl, rfl, rfl⟩

theorem call [Json.Decode α] (h : client.Respects view) (request : Request)
    (body : Option Payload) (w : World σ) :
    client.call request body (view w) =
      ((client.call request body w).map id view : Except Halt (Response α) × World τ) := by
  rcases h.lockstep.call (α := α) rfl request body with ⟨result, v, v', hfirst, hsecond, rfl⟩
  rw [hfirst, hsecond]
  rfl

end Respects
end Client
end RestClient
