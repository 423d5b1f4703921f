import Agentcy.Library.PyCalls

/-!
# Signatures of a handler

`_dispatch_to_handler` calls the handler of a queue with the preferred
signature, and with two older ones after a `TypeError`.
-/

namespace Agentcy.Consumer

open Agentcy.Library

universe u v w

variable {State : Type u} {Value : Type v} {Result : Type w}

/-- `_dispatch_to_handler`. -/
def dispatchToHandler
    (handler : PyFunction State Value Result)
    (message qinfo payload : Value) : PyCall State Result :=
  onTypeError (handler.call [message, qinfo, payload])
    (onTypeError (handler.call [message, qinfo])
      (handler.call [payload, qinfo]))

/-- The arguments that the handler is called with, in this order. -/
def handlerSignatures (message qinfo payload : Value) :
    List (List Value) :=
  [[message, qinfo, payload], [message, qinfo], [payload, qinfo]]

/-- The two older signatures are of one length, so the handler takes both of
them or none. -/
theorem countP_handlerSignatures_le_one_iff
    (handler : PyFunction State Value Result)
    (message qinfo payload : Value) :
    (handlerSignatures message qinfo payload).countP handler.takes ≤ 1 ↔
      handler.accepts 2 = false := by
  have preferred :
      handler.takes [message, qinfo, payload] = handler.accepts 3 := rfl
  have older : ∀ first second,
      handler.takes [first, second] = handler.accepts 2 :=
    fun _ _ => rfl
  simp only [handlerSignatures, List.countP_cons, List.countP_nil,
    preferred, older]
  cases handler.accepts 2 <;> cases handler.accepts 3 <;> simp

/-- One dispatch enters the body of the handler once at most exactly when the
handler does not take two arguments, or the body does not raise a `TypeError`
when it is entered first. -/
theorem dispatchToHandler_entries_le_succ_iff
    (handler : PyFunction State Value Result)
    (message qinfo payload : Value) (before : Entered State) :
    (dispatchToHandler handler message qinfo payload before).1.entries ≤
        before.entries + 1 ↔
      handler.accepts 2 = false ∨
        firstOutcome? handler (handlerSignatures message qinfo payload)
            before.state ≠
          some (.error .typeError) := by
  rw [← countP_handlerSignatures_le_one_iff handler message qinfo payload]
  exact callChain_entries_le_succ_iff handler [message, qinfo, payload]
    [[message, qinfo], [payload, qinfo]] before

end Agentcy.Consumer
