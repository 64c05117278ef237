import BlockIndex.Embedding.Service
import BlockIndex.Json.Reader
import BlockIndex.Text.Utf8

/-! A library for requests over HTTP.  A body is UTF-8 and may be nested as deeply as it likes. -/

namespace BlockIndex.Backend.Http

def isErrorStatus (status : Int) : Bool := 400 ≤ status && status < 600

theorem not_isErrorStatus {status : Int} (h : status < 300) : (!isErrorStatus status) = true := by
  simp [isErrorStatus]
  omega

/-- The answer with a status and a body. -/
def response (status : Int) (body : List UInt8) : Response :=
  let text := Text.Utf8.decode body
  { isOk := !isErrorStatus status
    status
    text := String.ofList text
    json := match Json.read text with
      | .ok v => .ok v
      | .error e => .error (.notJson (e.message text))
    success := fun _ h => not_isErrorStatus h }

end BlockIndex.Backend.Http
