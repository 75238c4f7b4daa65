import Mathlib.Logic.Basic

/-!
A task key as the keepers may rely on it. Under one key transactions are sent one after another, the next only
when the last can no longer succeed; a confirmed one is there for good.
-/

namespace Solonpad.SentTasks

/-- What became of a key: nothing that may still succeed, a transaction with this content that has succeeded or
not yet, or one the journal knows to have succeeded. -/
inductive Sent (Content : Type) where
  | unsent
  | sent (content : Content) (mined : Bool)
  | confirmed (content : Content)
  deriving DecidableEq, Repr

variable {Content : Type}

/-- The content that has succeeded under the key, once at most. -/
def Sent.landed : Sent Content → Option Content
  | .sent content true | .confirmed content => some content
  | _ => none

/-- The content that has succeeded or may still. -/
def Sent.content : Sent Content → Option Content
  | .sent content _ | .confirmed content => some content
  | .unsent => none

theorem Sent.content_of_landed {task : Sent Content} {content : Content} (landed : task.landed = some content) :
    task.content = some content := by
  cases task with
  | unsent => cases landed
  | confirmed => exact landed
  | sent own mined =>
    cases mined with
    | false => cases landed
    | true => exact landed

end Solonpad.SentTasks
