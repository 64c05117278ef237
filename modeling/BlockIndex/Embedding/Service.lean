import BlockIndex.Embedding.Vector
import BlockIndex.Json.Value
import BlockIndex.Number.Reading
import BlockIndex.Number.Ticks
import BlockIndex.Setup
import BlockIndex.Text.Quoted

/-! A service that computes vectors over HTTP.  A request holds one text or several.  It is sent by a
library, which also reads the body of the answer as JSON: `Response` is what the library gives.
`Service.read` and `Service.readAll` say what an answer means. -/

namespace BlockIndex

inductive ProviderError where
  | requestFailed (text : String)
  | status (code : Int) (text : String)
  | notJson (text : String)
  | notAnObject (kind : String)
  | noItems
  | wrongCount (expected actual : Nat)
  | noVector
  /-- A refusal in the provider's own words. -/
  | refused (text : String)
  deriving DecidableEq, Repr

def ProviderError.message : ProviderError → String
  | .requestFailed text => "API request failed: " ++ text
  | .status code text => "API error: " ++ toString code ++ " - " ++ text
  | .notJson text => "failed to decode API response: " ++ text
  | .notAnObject kind => "unexpected API response: " ++ kind
  | .noItems => "empty response from embeddings API"
  | .wrongCount expected actual =>
    "expected " ++ toString expected ++ " embeddings, got " ++ toString actual
  | .noVector => "response item has no embedding"
  | .refused text => text

/-- How the reading of an answer fails: the provider gave no vector, or a part of the answer is not
of the kind that is needed. -/
inductive ServiceError where
  | provider (e : ProviderError)
  | wrongKind
  | noMembers
  | noSuchMember
  | notANumber (text : String)
  | tooLarge
  /-- The body was not read to its end. -/
  | bodyNotRead
  deriving DecidableEq, Repr

def ServiceError.message : ServiceError → String
  | .provider e => e.message
  | .notANumber text => "could not convert string to float: " ++ Text.quoted text
  | _ => ""

structure Service where
  apiKey : String := ""
  model : String := "text-embedding-3-small"
  url : String := "https://api.openai.com/v1/embeddings"
  /-- The ticks that a request may take if it is not said. -/
  timeout : Int := Ticks.ofSeconds 60

inductive Input where
  | one (text : String)
  | several (texts : List String)
  deriving DecidableEq, Repr

structure Request where
  url : String
  headers : List (String × String)
  model : String
  input : Input
  /-- The ticks that it may take. -/
  timeout : Int
  deriving DecidableEq, Repr

/-- Why a body gives no value. -/
inductive BodyError where
  /-- The body is no JSON, in the words of the library. -/
  | notJson (text : String)
  /-- The reading was given up, as for values nested too deeply. -/
  | notRead

/-- An answer to a request, as a library gives it. -/
structure Response where
  /-- Whether the status is not one of an error. -/
  isOk : Bool
  status : Int
  text : String
  /-- The body read as JSON. -/
  json : Except BodyError Json
  success : 200 ≤ status → status < 300 → isOk = true

inductive Outcome where
  | failed (text : String)
  | response (r : Response)

namespace Service

/-- A service with a key, which must not be missing or empty. -/
def withKey? (s : Service) (key : Option String) : Except SetupError Service :=
  match key with
  | none => .error .noKey
  | some k => if k.isEmpty then .error .noKey else .ok { s with apiKey := k }

/-- The request for some texts.  A timeout of zero counts as none. -/
def request (s : Service) (input : Input) (timeout : Option Int) : Request where
  url := s.url
  headers := [("Authorization", "Bearer " ++ s.apiKey), ("Content-Type", "application/json")]
  model := s.model
  input := input
  timeout :=
    match timeout with
    | some t => if t = 0 then s.timeout else t
    | none => s.timeout

def kindName : Json → String
  | .null => "NoneType"
  | .bool _ => "bool"
  | .whole _ => "int"
  | .real _ => "float"
  | .text _ => "str"
  | .array _ => "list"
  | .object _ => "dict"

/-- The members of the object in an answer. -/
def members (o : Outcome) : Except ServiceError (List (String × Json)) :=
  match o with
  | .failed text => .error (.provider (.requestFailed text))
  | .response r =>
    if !r.isOk then
      .error (.provider (.status r.status (String.ofList (r.text.toList.take 500))))
    else
      match r.json with
      | .error (.notJson text) => .error (.provider (.notJson text))
      | .error .notRead => .error .bodyNotRead
      | .ok (.object ms) => .ok ms
      | .ok v => .error (.provider (.notAnObject (kindName v)))

def number : Json → Except ServiceError Double
  | .bool b => .ok (Double.ofInt b.toNat)
  | .whole n =>
    match Double.ofInt? n with
    | some x => .ok x
    | none => .error .tooLarge
  | .real x => .ok x
  | .text s =>
    match Number.double? s.toList with
    | some x => .ok x
    | none => .error (.notANumber s)
  | _ => .error .wrongKind

/-- The parts of a value that has parts: the elements of an array, the characters of a text, the
names of an object. -/
def parts? : Json → Option (List Json)
  | .array xs => some xs
  | .text s => some (s.toList.map fun c => .text (String.singleton c))
  | .object ms => some (ms.map fun m => .text m.1)
  | _ => none

def vector : Json → Except ServiceError Vector
  | .object ms =>
    let v := (ms.lookup "embedding").getD .null
    if v.isEmpty then .error (.provider .noVector)
    else
      match parts? v with
      | some xs => (xs.mapM number).map Vector.ofDoubles
      | none => .error .wrongKind
  | _ => .error .noMembers

/-- The items of an answer; what is empty counts as no items. -/
def items (ms : List (String × Json)) : Json :=
  let v := (ms.lookup "data").getD .null
  if v.isEmpty then .array [] else v

def read (o : Outcome) : Except ServiceError Vector := do
  let v := items (← members o)
  match v with
  | .array [] => .error (.provider .noItems)
  | .array (x :: _) => vector x
  | .text _ => .error .noMembers
  | .object _ => .error .noSuchMember
  | _ => .error .wrongKind

/-- Whether a number in binary is a whole number. -/
def isWhole (x : Double) (n : Int) : Bool :=
  match x with
  | .finite s m e =>
    let unit := min e 0
    decide (Double.inUnits s m e unit = n * Nat.pow 2 (-unit).toNat)
  | _ => false

mutual

/-- Whether two values are equal as parts of lists and objects.  What is not a number is the same as
itself there. -/
def same : Json → Json → Bool
  | .null, .null => true
  | .text a, .text b => a == b
  | .array as, .array bs => sameElements as bs
  | .object as, .object bs => as.length == bs.length && sameMembers as bs
  | .real x, .real y =>
    if x = .nan ∨ y = .nan then x == y else !x.less y && !y.less x
  | .real x, .whole n => isWhole x n
  | .whole n, .real x => isWhole x n
  | .real x, .bool b => isWhole x b.toNat
  | .bool b, .real x => isWhole x b.toNat
  | .whole m, .whole n => m == n
  | .whole m, .bool b => m == b.toNat
  | .bool b, .whole n => n == b.toNat
  | .bool a, .bool b => a == b
  | _, _ => false

def sameElements : List Json → List Json → Bool
  | [], [] => true
  | a :: as, b :: bs => same a b && sameElements as bs
  | _, _ => false

/-- Whether other members have the same value for each name. -/
def sameMembers : List (String × Json) → List (String × Json) → Bool
  | [], _ => true
  | (name, a) :: as, bs =>
    (match bs.lookup name with
      | some b => same a b
      | none => false) && sameMembers as bs

end

def realLess (x : Double) (n : Int) : Bool :=
  match x with
  | .nan => false
  | .infinite s => s
  | .finite s m e =>
    let unit := min e 0
    decide (Double.inUnits s m e unit < n * Nat.pow 2 (-unit).toNat)

def realGreater (x : Double) (n : Int) : Bool :=
  match x with
  | .nan => false
  | .infinite s => !s
  | .finite s m e =>
    let unit := min e 0
    decide (n * Nat.pow 2 (-unit).toNat < Double.inUnits s m e unit)

/-- Whether the first value comes before the second, if the two can be compared: numbers with
numbers, texts with texts, lists with lists. -/
def before? : Json → Json → Option Bool
  | .whole m, .whole n => some (m < n)
  | .whole m, .bool b => some (m < b.toNat)
  | .bool b, .whole n => some (b.toNat < n)
  | .bool a, .bool b => some (!a && b)
  | .real x, .real y => some (x.less y)
  | .real x, .whole n => some (realLess x n)
  | .whole n, .real x => some (realGreater x n)
  | .real x, .bool b => some (realLess x b.toNat)
  | .bool b, .real x => some (realGreater x b.toNat)
  | .text a, .text b => some (a < b)
  | .array _, .array [] => some false
  | .array [], .array (_ :: _) => some true
  | .array (a :: as), .array (b :: bs) =>
    if same a b then before? (.array as) (.array bs) else before? a b
  | _, _ => none

/-- A keyed item put before the first of the items, given last first, that it does not come
before. -/
def insertKeyed (x : Json × Json) : List (Json × Json) → Option (List (Json × Json))
  | [] => some [x]
  | y :: ys => do
    if ← before? x.1 y.1 then (insertKeyed x ys).map (y :: ·) else some (x :: y :: ys)

/-- Keyed items in the order of their keys, those with equal keys in the order given, if the keys
can be compared.  What is not a number has no place in an order; with such keys nothing is said of
the order. -/
def sortKeyed (xs : List (Json × Json)) : Option (List (Json × Json)) :=
  (xs.foldlM (fun done x => insertKeyed x done) []).map List.reverse

/-- The place that an item gives for itself. -/
def place : Json → Except ServiceError Json
  | .object ms => .ok ((ms.lookup "index").getD (.whole 0))
  | _ => .error .noMembers

/-- The vectors in the answer to a request with `count` texts, in the order of the texts. -/
def readAll (count : Nat) (o : Outcome) : Except ServiceError (List Vector) := do
  match parts? (items (← members o)) with
  | none => .error .wrongKind
  | some xs =>
    if xs.length ≠ count then .error (.provider (.wrongCount count xs.length))
    else
      let keys ← xs.mapM place
      match sortKeyed (keys.zip xs) with
      | none => .error .wrongKind
      | some sorted => sorted.mapM fun x => vector x.2

/-- The requests that are made for one text, and its vector, where `send` says what comes of a
request. -/
def embed (s : Service) (send : Request → Outcome) (text : String) (timeout : Option Int) :
    List Request × Except ServiceError Vector :=
  let r := s.request (.one text) timeout
  ([r], read (send r))

/-- The requests that are made for several texts, and their vectors.  For no texts none is made. -/
def embedAll (s : Service) (send : Request → Outcome) (texts : List String)
    (timeout : Option Int) : List Request × Except ServiceError (List Vector) :=
  if texts.isEmpty then ([], .ok [])
  else
    let r := s.request (.several texts) timeout
    ([r], readAll texts.length (send r))

end Service

end BlockIndex
