import Yuizaki.Events.JobLog
import Yuizaki.Lib.Fallible
import Yuizaki.Tool.Policy

/- What a tool call meets (`ToolExecutor.execute` in `modules/agent/tool_executor.py`).

   Plugins, the policy, the user, the handler, the verifier and the bookkeeping after a
   call are answers from outside: each returns a value of any shape, raises, or is cut off
   by the cancellation signal. A value is what reading it gives, attribute by attribute. -/
namespace Tool

open Events Fallible

/-! ## Answers from outside -/

/-- What ends a call of something outside: a cancellation, an exception (a `TimeoutError` or
not, with the text `str` gives, if it gives one), or an exit of the interpreter. -/
inductive Raised where
  | cancelled
  | error (timeout : Bool) (text : Option String)
  | fatal
deriving DecidableEq

def Raised.ofText (text : String) : Raised := .error false (some text)

namespace Attr

variable {α : Type}

end Attr

/-! ## The call and what is outside of it -/

inductive VerificationStatus where
  | verified
  | unverified
  | error
  | cancelled
deriving DecidableEq

def VerificationStatus.text : VerificationStatus → String
  | .verified => "verified"
  | .unverified => "unverified"
  | .error => "error"
  | .cancelled => "cancelled"

end Tool
