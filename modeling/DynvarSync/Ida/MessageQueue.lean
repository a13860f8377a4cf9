import DynvarSync.Ida.Controller
import DynvarSync.Lib.Mailbox

/-! The controller's message queue: network threads put messages and call IDA's thread, which
drains the queue between the actions of its user. -/
namespace DynvarSync.Ida
open Lib

/-- What the user interface does on IDA's thread. -/
inductive UserAction where
  | disconnect
  | setFilter (filter : RowFilter)

def UserAction.op : UserAction → DayVarController.Op
  | .disconnect => .disconnect
  | .setFilter filter => .setFilter filter

/-- `_handle_message` with what IDA answers meanwhile; an exception in it leaves `_drain_messages`. -/
def drainMessages : Mailbox.Consumer Payload HostReply UserAction DayVarController where
  handle c host message := (c.handleMessage host message).controller
  raises c host message := (c.handleMessage host message).raised
  act c action := c.step action.op

/-- What IDA's thread has done, as operations of the controller. -/
def opOf : HostReply × Payload ⊕ UserAction → DayVarController.Op
  | .inl (host, message) => .message host message
  | .inr action => action.op

theorem perform_eq (c : DayVarController) (entry : HostReply × Payload ⊕ UserAction) :
    Mailbox.perform drainMessages c entry = c.step (opOf entry) := by
  cases entry with
  | inl message => rfl
  | inr action => rfl

/-- In whatever order network threads put messages and call IDA's thread, whether a call fails or a handling raises:
the controller is what its operations make of it, the messages among them are the first of those put, in order, the
others are queued, and none is left queued with nobody to take it unless a call has failed or a handling raised since
the queue was last drained. -/
theorem messages_handled_in_order (c : DayVarController) (events : List (Mailbox.Event Payload HostReply UserAction)) :
    let s := events.foldl (Mailbox.step drainMessages) { consumer := c }
    s.consumer = (s.log.map opOf).foldl DayVarController.step c ∧
      s.allPut = s.log.filterMap Mailbox.taken ++ s.queue ∧
      (s.putting = 0 → s.woken = 0 → s.draining = false → s.stranded = false → s.queue = []) := by
  intro s
  have h : Mailbox.Holds drainMessages c s := Mailbox.run_holds drainMessages c events
  refine ⟨?_, h.order, fun hputting hwoken hdraining hstranded => ?_⟩
  · have hperform : Mailbox.perform drainMessages = fun c entry => c.step (opOf entry) := by
      funext c entry
      exact perform_eq c entry
    rw [h.replayed, hperform, List.foldl_map]
  · by_contra hne
    rcases h.served hne with hbusy | hbusy | hbusy | hbusy
    · exact hbusy hputting
    · exact hbusy hwoken
    · rw [hdraining] at hbusy
      cases hbusy
    · rw [hstranded] at hbusy
      cases hbusy

end DynvarSync.Ida
