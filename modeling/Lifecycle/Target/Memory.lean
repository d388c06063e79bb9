import Lifecycle.Target.Call

/-!
Entities kept in memory, by ascending identifiers.
-/

namespace Lifecycle.Target

open Time (Instant)

structure Entity where
  status : Option String
  changedAt : Option Instant
  email : Option String
  fields : Json.Members
  tags : List String
deriving DecidableEq, Repr

/-- The entity with a tag, which it has once. -/
def Entity.addTag (e : Entity) (label : String) : Entity :=
  if e.tags.contains label then e else { e with tags := e.tags ++ [label] }

abbrev Memory := List (String × Entity)

namespace Memory

/-- The entities with `e` under `id`, in its place by order. -/
def insert (id : String) (e : Entity) : Memory → Memory
  | [] => [(id, e)]
  | (k, f) :: rest =>
    if id < k then (id, e) :: (k, f) :: rest
    else if id = k then (id, e) :: rest
    else (k, f) :: insert id e rest

/-- The entities with the one of `id` changed. -/
def update (m : Memory) (id : String) (f : Entity → Entity) : Memory :=
  m.map fun (k, e) => if k = id then (k, f e) else (k, e)

/-- What `f` reads of the entity `id`. -/
def read {α : Type} (m : Memory) (id : String) (f : Entity → α) : Except Fault α :=
  match m.lookup id with
  | some e => .ok (f e)
  | none => .error (.notFound id)

/-- The entities with the one of `id` changed, if there is one. -/
def write (m : Memory) (id : String) (f : Entity → Entity) : Except Fault Unit × Memory :=
  if (m.lookup id).isSome then (.ok (), m.update id f) else (.error (.notFound id), m)

/-- The answer to a call, and the entities after it. -/
def answer : (c : Call) → Memory → c.Answer × Memory
  | .status id, m => (m.read id (·.status), m)
  | .changedAt id, m => (m.read id (·.changedAt), m)
  | .field id field, m => (m.read id (·.fields.lookup field), m)
  | .putField id field value, m => m.write id fun e => { e with fields := e.fields.insert field value }
  | .tag id label, m => m.write id (·.addTag label)
  | .email id, m => (m.read id (·.email), m)
  | .view id, m => (m.read id fun e => view id e.status e.changedAt e.email e.fields (e.tags.map Json.str), m)
  | .find status before, m =>
    (.ok ((m.filter fun (_, e) => e.status == some status && e.changedAt.any (· ≤ before)).map (·.1)), m)

end Memory

end Lifecycle.Target
