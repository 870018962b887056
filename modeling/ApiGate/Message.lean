import Mathlib.Data.List.Basic

/-!
# HTTP messages

Requests and responses as the gateway sees them through Boost.Beast: a
version, a start line, a body and an ordered list of fields. Field names
compare without regard to letter case; equal names stand next to each other,
because `insert` puts a new field right behind the last one of its name.

`Library` collects the two outside functions that decide something: the table
of registered status codes behind `header::result()` and the SHA-256 digest.
-/

namespace ApiGate

/-- Byte strings, one character for each byte. -/
abbrev Text := List Char

abbrev Digest := Text

structure Library where
  /-- `int_to_status`: the code itself when it is registered, else 0 -/
  intToStatus : Nat → Nat
  /-- SHA-256 of a key -/
  sha256 : Text → Digest

/-! ## Text -/

def lowercaseChar (c : Char) : Char :=
  if 'A' ≤ c ∧ c ≤ 'Z' then Char.ofNat (c.toNat + 32) else c

/-- ASCII letters only. -/
def lowercase (value : Text) : Text := value.map lowercaseChar

def isBlank (c : Char) : Bool := c = ' ' || c = Char.ofNat 9

def trim (value : Text) : Text :=
  ((value.dropWhile isBlank).reverse.dropWhile isBlank).reverse

/-- The pieces between commas; there is always at least one. -/
def splitComma : Text → List Text
  | [] => [[]]
  | c :: rest =>
      if c = ',' then [] :: splitComma rest
      else
        match splitComma rest with
        | [] => [[c]]
        | first :: others => (c :: first) :: others

/-- The elements of a comma-separated value, without the empty ones. -/
def tokenList (value : Text) : List Text :=
  ((splitComma value).map trim).filter fun t => !t.isEmpty

def tokenExists (value name : Text) : Bool :=
  (tokenList value).any fun t => lowercase t = name

/-- Beast's `filter_token_list`: the elements that stay, joined again. -/
def joinTokens : List Text → Text
  | [] => []
  | [t] => t
  | t :: rest => t ++ ", ".toList ++ joinTokens rest

def filterTokens (value : Text) (drop : Text → Bool) : Text :=
  joinTokens ((tokenList value).filter fun t => !drop (lowercase t))

def decimal (n : Nat) : Text := (toString n).toList

/-! ## Fields -/

structure Field where
  name : Text
  value : Text
  deriving DecidableEq, Repr

/-- `field.name() == http::field::x`, where `x` is written in lower case. -/
def Field.named (name : Text) (f : Field) : Bool := lowercase f.name = name

abbrev Fields := List Field

namespace Fields

def has (fs : Fields) (name : Text) : Bool := fs.any (Field.named name)

/-- `fields[name]`: the first value, empty when there is none. -/
def value (fs : Fields) (name : Text) : Text :=
  match fs.find? (Field.named name) with
  | some f => f.value
  | none => []

/-- `equal_range(name)` -/
def equalRange (fs : Fields) (name : Text) : List Field := fs.filter (Field.named name)

def erase (fs : Fields) (name : Text) : Fields := fs.filter fun f => !f.named name

/-- `fields::set`: the new field goes to the end. -/
def set (fs : Fields) (name value : Text) : Fields :=
  fs.erase (lowercase name) ++ [⟨name, value⟩]

/-- Behind the last field of the same name, else at the end. -/
def insertAfterLast (f : Field) : Fields → Fields
  | [] => [f]
  | g :: rest =>
      if g.named (lowercase f.name) && !has rest (lowercase f.name) then g :: f :: rest
      else g :: insertAfterLast f rest

/-- `fields::insert` -/
def insert (fs : Fields) (name value : Text) : Fields := insertAfterLast ⟨name, value⟩ fs

/-! ### The Connection field -/

/-- `message::keep_alive()` -/
def keepAlive (version : Nat) (fs : Fields) : Bool :=
  if version < 11 then tokenExists (fs.value "connection".toList) "keep-alive".toList
  else !tokenExists (fs.value "connection".toList) "close".toList

/-- What `message::keep_alive(bool)` writes into a Connection field of the given
value. -/
def keepAliveValue (version : Nat) (value : Text) (keep : Bool) : Text :=
  let close := "close".toList
  let alive := "keep-alive".toList
  let added := if version < 11 then alive else close
  let removed := if version < 11 then close else alive
  if decide (version < 11) = keep then
    let s := filterTokens value (· = removed)
    if s.isEmpty then added
    else if tokenExists value added then s
    else s ++ ", ".toList ++ added
  else filterTokens value fun t => t = close || t = alive

/-- `message::keep_alive(bool)` -/
def setKeepAlive (version : Nat) (keep : Bool) (fs : Fields) : Fields :=
  let s := keepAliveValue version (fs.value "connection".toList) keep
  if s.isEmpty then fs.erase "connection".toList else fs.set "Connection".toList s

/-! ### Framing fields -/

def hasContentLength (fs : Fields) : Bool := fs.has "content-length".toList

/-- `chunked()`: the last transfer coding. -/
def chunked (fs : Fields) : Bool :=
  match (tokenList (fs.value "transfer-encoding".toList)).getLast? with
  | some t => lowercase t = "chunked".toList
  | none => false

/-- `set_chunked_impl(false)` -/
def clearChunked (fs : Fields) : Fields :=
  if fs.has "transfer-encoding".toList then
    let s := filterTokens (fs.value "transfer-encoding".toList) (· = "chunked".toList)
    if s.isEmpty then fs.erase "transfer-encoding".toList
    else fs.set "Transfer-Encoding".toList s
  else fs

/-- `message::content_length(n)` -/
def setContentLength (n : Nat) (fs : Fields) : Fields :=
  (fs.set "Content-Length".toList (decimal n)).clearChunked

/-- `message::chunked(true)` -/
def setChunked (fs : Fields) : Fields :=
  let value := fs.value "transfer-encoding".toList
  let fs' :=
    if fs.chunked then fs
    else if value.isEmpty then fs.set "Transfer-Encoding".toList "chunked".toList
    else fs.set "Transfer-Encoding".toList (value ++ ", chunked".toList)
  fs'.erase "content-length".toList

end Fields

/-! ## Requests and responses -/

inductive Verb where
  | get
  | post
  | put
  | patch
  | other
  deriving DecidableEq, Repr

structure HttpRequest where
  method : Verb
  target : Text
  version : Nat := 11
  fields : Fields := []
  body : Text := []
  deriving DecidableEq, Repr

def HttpRequest.keepAlive (r : HttpRequest) : Bool := r.fields.keepAlive r.version

/-- `status` is the raw number, `result_int()`. -/
structure HttpResponse where
  status : Nat
  version : Nat := 11
  reason : Text := []
  fields : Fields := []
  body : Text := []
  deriving DecidableEq, Repr

namespace HttpResponse

/-- `header::result()` -/
def result (lib : Library) (r : HttpResponse) : Nat := lib.intToStatus r.status

def keepAlive (r : HttpResponse) : Bool := r.fields.keepAlive r.version

def setKeepAlive (keep : Bool) (r : HttpResponse) : HttpResponse :=
  { r with fields := r.fields.setKeepAlive r.version keep }

/-- A status that has no body: 1xx, 204 and 304. -/
def bodyless (lib : Library) (r : HttpResponse) : Bool :=
  r.result lib = 204 || r.result lib = 304 || r.result lib / 100 = 1

/-- `message::need_eof()` -/
def needEof (lib : Library) (r : HttpResponse) : Bool :=
  if r.bodyless lib || r.fields.hasContentLength || r.fields.chunked then !r.keepAlive
  else true

/-- `message::prepare_payload()`, which throws when a status without a body has
one. -/
def preparePayload (lib : Library) (r : HttpResponse) : Except Unit HttpResponse :=
  if r.bodyless lib && !r.body.isEmpty then .error ()
  else .ok { r with fields := r.fields.setContentLength r.body.length }

end HttpResponse

end ApiGate
