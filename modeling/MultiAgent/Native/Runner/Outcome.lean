import MultiAgent.Native.Task

/-!
# From the events of a turn to an outcome

`outcomeFromEvents` and `extractText` of `runner.ts`. An event holds what these
two read of it; a field that is absent or of another type is `none` or `other`.
-/

namespace MultiAgent.Native

/-- A block of a message: a text block with its text, if that is a string. -/
inductive Block where
  | text (text : Option String)
  | other
  deriving DecidableEq, Repr

/-- The reason of a `turn/end`. -/
structure TurnEndReason where
  kind : Option String
  errorMessage : Option String
  deriving DecidableEq, Repr

inductive SessionEvent where
  /-- The content of the message, if it is an array of blocks. -/
  | assistantMessage (content : Option (List Block)) (interrupted : Bool)
  | toolCall
  | toolResult
  | turnEnd (reason : Option TurnEndReason)
  | other (type : String)
  deriving DecidableEq, Repr

def SessionEvent.isTurnEnd : SessionEvent → Bool
  | .turnEnd _ => true
  | _ => false

def extractText (content : Option (List Block)) : Option String :=
  let parts := (content.getD []).filterMap fun
    | .text text => text
    | .other => none
  if parts.isEmpty then none else some (String.join parts)

/-- The local variables of the loop over the events. -/
structure Tally where
  assistantMessages : Nat
  toolCalls : Nat
  toolResults : Nat
  texts : List String
  interruptedPrefix : Option String
  turnEndReason : Option String
  turnError : Option String
  deriving DecidableEq, Repr

def Tally.empty : Tally where
  assistantMessages := 0
  toolCalls := 0
  toolResults := 0
  texts := []
  interruptedPrefix := none
  turnEndReason := none
  turnError := none

/-- The error message that a `turn/end` records, else the one recorded before. -/
def Tally.nextError (tally : Tally) (reason : Option TurnEndReason) : Option String :=
  match reason with
  | some ⟨some "error", some message⟩ => some message
  | _ => tally.turnError

def Tally.add (tally : Tally) : SessionEvent → Tally
  | .assistantMessage content interrupted =>
    let tally := { tally with assistantMessages := tally.assistantMessages + 1 }
    let text := extractText content
    if interrupted then { tally with interruptedPrefix := text }
    else
      match text with
      | some text => if text.isEmpty then tally else { tally with texts := tally.texts ++ [text] }
      | none => tally
  | .toolCall => { tally with toolCalls := tally.toolCalls + 1 }
  | .toolResult => { tally with toolResults := tally.toolResults + 1 }
  | .turnEnd reason =>
    { tally with turnEndReason := reason.bind TurnEndReason.kind
                 turnError := tally.nextError reason }
  | .other _ => tally

structure OutcomeInputs where
  cancelledBySignal : Bool
  timedOut : Bool
  durationMs : Int
  deriving DecidableEq, Repr

def outcomeFromEvents (taskId : String) (events : List SessionEvent) (inputs : OutcomeInputs) :
    TaskOutcome :=
  let tally := events.foldl Tally.add .empty
  let raw : TaskRawEvents :=
    { assistantMessages := tally.assistantMessages, toolCalls := tally.toolCalls
      toolResults := tally.toolResults, turnEndReason := tally.turnEndReason }
  let joined := if tally.texts.isEmpty then none else some ("\n\n".intercalate tally.texts)
  let ended := tally.turnEndReason.getD "no turn/end"
  if tally.turnEndReason = some "completed" then
    { taskId, status := .completed, text := joined, error := none
      durationMs := inputs.durationMs, raw := some raw }
  else if inputs.timedOut then
    { taskId, status := .failed, text := joined <|> tally.interruptedPrefix
      error := some s!"timeout: turn did not complete ({ended})"
      durationMs := inputs.durationMs, raw := some raw }
  else if inputs.cancelledBySignal || decide (tally.turnEndReason = some "aborted") then
    { taskId, status := .cancelled, text := joined <|> tally.interruptedPrefix
      error := some (if inputs.cancelledBySignal then "cancelled" else s!"turn aborted ({ended})")
      durationMs := inputs.durationMs, raw := some raw }
  else
    { taskId, status := .failed, text := joined <|> tally.interruptedPrefix
      error := some (tally.turnError.getD s!"turn ended: {ended}")
      durationMs := inputs.durationMs, raw := some raw }

end MultiAgent.Native
