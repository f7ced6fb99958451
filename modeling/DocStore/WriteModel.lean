import DocStore.Filter.Expression
import DocStore.Update

/-!
# Write models

One entry of a batch: a filter, an update for the first match, and whether to create a document
when nothing matches.
-/

namespace DocStore

/-- What is wrong with a request. -/
inductive RequestFault where
  | filter (fault : FilterFault)
  | update (fault : UpdateFault)
  deriving DecidableEq

def RequestFault.message : RequestFault → String
  | .filter fault => "Invalid filter: " ++ fault.message
  | .update fault => "Invalid update: " ++ fault.message

/-- An update of the first match of a filter, as an entry of a batch. -/
structure WriteModel where
  filter : Filter
  update : Update
  upsert : Bool

namespace WriteModel

/-- The flag that an optional member stands for. -/
def upsertOf? : Option Value → Except UpdateFault Bool
  | none => .ok false
  | some .null => .ok false
  | some (.bool b) => .ok b
  | some other => .error (.upsertNotBool other.kind)

/-- The write model that the body of an expression stands for. Absent members are the empty filter,
the empty update and no upsert; other members are ignored. -/
def ofBody? (body : Document) : Except RequestFault WriteModel := do
  let filter ← (Filter.ofValue? ((Fields.get? "filter" body).getD .null)).mapError .filter
  let update ← (Update.ofValue? ((Fields.get? "update" body).getD (.object []))).mapError .update
  let upsert ← (upsertOf? (Fields.get? "upsert" body)).mapError .update
  return ⟨filter, update, upsert⟩

/-- The write model that a value stands for: an object with the one member `updateOne`. -/
def ofValue? : Value → Except RequestFault WriteModel
  | .object fields =>
    match Fields.get? "updateOne" fields with
    | some (.object body) =>
      match Fields.erase "updateOne" fields with
      | [] => ofBody? body
      | (name, _) :: _ => .error (.update (.unknownModel name))
    | _ => .error (.update .modelWithoutBody)
  | _ => .error (.update .modelNotObject)

end WriteModel

end DocStore
