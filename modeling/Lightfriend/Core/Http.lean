import Lightfriend.Core.Machine

/-! # Answers to HTTP requests -/

namespace Lightfriend

/-- What `send()` and the reading of the body gave. An error of `send` carries no status. -/
inductive HttpOutcome
  | transportError (detail : String)
  | response (status : Nat) (body : Except String String)

/-- `StatusCode::is_success`. -/
def isSuccess (status : Nat) : Bool := 200 ≤ status && status < 300

/-- `StatusCode::NOT_FOUND`. -/
def notFound : Nat := 404

end Lightfriend
