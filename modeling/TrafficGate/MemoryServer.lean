import TrafficGate.Api
import TrafficGate.Json.Codec
/-!
# A server in memory

Projects and filters held as values, answering the calls of the API. A
queue of `Interference`s says which of the next calls go wrong, and how;
each call takes one off. The server also keeps what was asked of it.
-/

namespace TrafficGate

/-- What happens to a call that does not simply go well. -/
inductive Interference where
  /-- The call gets no response. -/
  | refuse (message : String)
  /-- The call gets this response and changes nothing. The payload is a
  value that still has to be read. -/
  | reply (status : Status) (body : List UInt8) (payload : Option Json)
  /-- The call is served. A list that is written is joined by `concurrent`
  ids, and the response reports `echo` in its place if that is given. -/
  | serve (echo : Option (Option (List String))) (concurrent : List String)
  deriving Inhabited

/-- A project as the server keeps it, under the name of its kind and its id. It may be of a kind
that no call asks for. -/
structure StoredProject where
  kindName : String
  id : String
  filters : Option (List String)
  deriving DecidableEq, Repr, Inhabited

/-- What the server holds, and what it was asked. -/
structure MemoryServer where
  projects : List StoredProject := []
  filters : List FilterInfo := []
  /-- How many filters were made so far. -/
  made : Nat := 0
  interferences : List Interference := []
  /-- The calls so far, the last one first. -/
  calls : List Call := []
  /-- The samples so far, the last one first. -/
  samples : List Sample := []
  deriving Inhabited

namespace MemoryServer

variable (s : MemoryServer)

/-! ## What it holds -/

def project? (kind : ProjectKind) (id : String) : Option StoredProject :=
  s.projects.find? fun p => p.kindName = kind.name && p.id = id

def filter? (id : String) : Option FilterInfo := s.filters.find? (·.id = id)

def dropProject (kindName id : String) : MemoryServer :=
  { s with projects := s.projects.filter fun p => !(p.kindName = kindName && p.id = id) }

def dropFilter (id : String) : MemoryServer :=
  { s with filters := s.filters.filter (·.id ≠ id) }

def putProject (p : StoredProject) : MemoryServer :=
  let s := s.dropProject p.kindName p.id
  { s with projects := s.projects ++ [p] }

def putFilter (info : FilterInfo) : MemoryServer :=
  let s := s.dropFilter info.id
  { s with filters := s.filters ++ [info] }

/-- The projects by kind and id, and the filters by id. -/
def sorted : MemoryServer :=
  { s with
    projects := s.projects.mergeSort fun a b =>
      a.kindName < b.kindName || (a.kindName = b.kindName && !(b.id < a.id))
    filters := s.filters.mergeSort fun a b => !(b.id < a.id) }

/-! ## Calls that go well -/

private def reply {α : Type} (status : Status) (payload : Option α) :
    Except ApiError (Response α) :=
  .ok ⟨status, payload, []⟩

/-- The body that says that something is not there. -/
def unknownBody : List UInt8 :=
  Utf8.encode "\x7b\"errors\":[\x7b\"code\":\"not_found\"\x7d]\x7d"

private def unknown {α : Type} : Except ApiError (Response α) := .ok ⟨.notFound, none, unknownBody⟩

/-- The record of a project with a list of filters. -/
def record (kind : ProjectKind) (id : String) (filters : Option (List String)) : Project where
  id := id
  name := kind.name ++ "-" ++ id
  filters := filters.map fun ids => ids.map FilterRef.mk

/-- The record of a project once a list has been written to it. -/
def patched (p : StoredProject) (patch : ProjectPatch) (concurrent : List String) :
    StoredProject :=
  match patch.filters with
  | none => p
  | some sent => { p with filters := some (sent.map FilterRef.id ++ concurrent) }

/-- A new filter. -/
def newFilter (c : FilterCreation) (id : String) : FilterInfo where
  id := id
  name := c.name
  type := c.type
  region := c.region
  includeByDefault := c.includeByDefault.getD false
  description := c.description
  rules := c.rules.getD []

/-- A filter with the fields that a patch sends. -/
def changed (info : FilterInfo) (patch : FilterPatch) : FilterInfo :=
  { info with
    name := patch.name.getD info.name
    includeByDefault := patch.includeByDefault.getD info.includeByDefault
    description := patch.description.orElse fun _ => info.description
    rules := patch.rules.getD info.rules }

/-- Serves a call. -/
def serve (echo : Option (Option (List String))) (concurrent : List String) :
    (c : Call) → c.Outcome × MemoryServer
  | .getProject kind id =>
    match s.project? kind id with
    | none => (unknown, s)
    | some p => (reply .ok (some (record kind id p.filters)), s)
  | .patchProject kind id patch =>
    match s.project? kind id with
    | none => (unknown, s)
    | some p =>
      let p := patched p patch concurrent
      (reply .ok (some (record kind id (echo.getD p.filters))), s.putProject p)
  | .createFilter creation =>
    let info := newFilter creation ("tf-" ++ toString (s.made + 1))
    (reply .created (some info), { s with made := s.made + 1 }.putFilter info)
  | .getFilter id =>
    match s.filter? id with
    | none => (unknown, s)
    | some info => (reply .ok (some info), s)
  | .patchFilter id patch =>
    match s.filter? id with
    | none => (unknown, s)
    | some info => (reply .ok (some (changed info patch)), s.putFilter (changed info patch))
  | .deleteFilter id =>
    match s.filter? id with
    | none => (unknown, s)
    | some _ => (reply .ok none, s.dropFilter id)

/-! ## Calls in turn -/

/-- A response made up for a call, its payload read from a value. -/
def madeUp (c : Call) (status : Status) (body : List UInt8) (payload : Option Json) :
    c.Outcome :=
  match payload, c.codec? with
  | some x, some codec =>
    match codec.ofValue x with
    | .ok a => .ok ⟨status, some a, body⟩
    | .error fault => .error (.json fault)
  | _, _ => .ok ⟨status, none, body⟩

/-- Answers a call, under the next interference if there is one. -/
def answerCall (c : Call) : c.Outcome × MemoryServer :=
  let s := { s with calls := c :: s.calls }
  match s.interferences with
  | [] => s.serve none [] c
  | i :: rest =>
    let s := { s with interferences := rest }
    match i with
    | .refuse message => (.error (.invalidUrl message), s)
    | .reply status body payload => (madeUp c status body payload, s)
    | .serve echo concurrent => s.serve echo concurrent c

/-- Answers a question. -/
def answer : (q : Api.Question) → MemoryServer → Api.Answer q × MemoryServer
  | .call c, s => s.answerCall c
  | .count sample, s => ((), { s with samples := sample :: s.samples })

end MemoryServer

end TrafficGate
