import Flowchart.Json.Reader
import Flowchart.Json.Writer
import Flowchart.Record
import Flowchart.Text.Encoding

/-!
# Requests and responses

What the service is asked, and what it answers. A body is JSON in any of its encodings. A request
that is at fault is rejected with a status of its own and a sentence that says why. A response
carries JSON; a value that JSON has no numbers for makes it an internal error.
-/

namespace Flowchart.Service

/-! ## Requests -/

/-- A request. -/
structure Request where
  method : Text
  path : Text
  body : Bytes

/-- Why a request is rejected. -/
inductive Rejection where
  | notJson
  | notAnObject
  | codeMissing
  | codeTooLong (limit : Int)
  | graphMissing
  | badGraph (error : RecordError)
  | unknownShape
  | badPosition
  | endsMissing

/-- The fields of a body, as an object. -/
def readBody (body : Bytes) : Except Rejection Json :=
  match (Encoding.text? body).map Json.read with
  | some (.ok (.obj fields)) => .ok (.obj fields)
  | some (.ok _) => .error .notAnObject
  | _ => .error .notJson

/-! ## Responses -/

/-- A response. -/
structure Response where
  status : Nat
  body : Text
  deriving DecidableEq

namespace Response

/-- The response to a request that the service fails on. -/
def internalError : Response := ⟨500, "Internal Server Error".toList⟩

/-- A response that carries a value. -/
def json (status : Nat) (v : Json) : Response :=
  if v.allFinite then ⟨status, v.write .compact⟩ else internalError

end Response

namespace Rejection

/-- The status of a rejection. -/
def status : Rejection → Nat
  | codeTooLong _ => 413
  | _ => 400

/-- The wording of a rejection. -/
def message : Rejection → Text
  | notJson => "request body must be JSON".toList
  | notAnObject => "request body must be a JSON object".toList
  | codeMissing => "code is required".toList
  | codeTooLong limit =>
    "code exceeds ".toList ++ Numeral.signedDecimal limit ++ " characters".toList
  | graphMissing => "graph is required".toList
  | badGraph error => error.message
  | unknownShape =>
    "shape must be one of ".toList ++
      List.intercalate [',', ' '] ((Vocabulary.words : List Shape).map Shape.name)
  | badPosition => "position must be ".toList ++ '\x7b' :: "x, y".toList ++ ['\x7d']
  | endsMissing => "source and target are required".toList

/-- The response to a rejected request. -/
def response (r : Rejection) : Response :=
  .json r.status (.obj [("detail".toList, .str r.message)])

end Rejection

/-- The response with a value, or to a rejected request. -/
def Response.ofResult (status : Nat) : Except Rejection Json → Response
  | .ok v => .json status v
  | .error r => r.response

end Flowchart.Service
