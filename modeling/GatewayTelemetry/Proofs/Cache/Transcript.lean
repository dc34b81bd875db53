import GatewayTelemetry.Cache.Operation

/-! # Histories with their answers

A transcript is a history of operations together with what each was answered.
-/

namespace GatewayTelemetry.Cache

structure Exchange where
  operation : Operation
  answer : Except AgentError Answer

def transcript (c : Cache) : List Operation → List Exchange
  | [] => []
  | op :: rest => ⟨op, (c.apply op).2⟩ :: (c.apply op).1.transcript rest

theorem transcript_append (c : Cache) (first second : List Operation) :
    c.transcript (first ++ second) =
      c.transcript first ++ (c.applyAll first).transcript second := by
  induction first generalizing c with
  | nil => rfl
  | cons op rest ih => exact congrArg (_ :: ·) (ih _)

theorem transcript_concat (c : Cache) (past : List Operation) (op : Operation) :
    c.transcript (past ++ [op]) =
      c.transcript past ++ [⟨op, ((c.applyAll past).apply op).2⟩] := transcript_append c past [op]

theorem applyAll_concat (c : Cache) (past : List Operation) (op : Operation) :
    c.applyAll (past ++ [op]) = ((c.applyAll past).apply op).1 := applyAll_append c past [op]

end GatewayTelemetry.Cache
