import ConfigIndex.Data.Value

/-!
Laying one record over another: records merge field by field, everything else is replaced.
-/

namespace ConfigIndex.Data

mutual

/-- The fields of `base`, updated by the fields over it. -/
def Fields.merge (base : List (String × Data)) : List (String × Data) → List (String × Data)
  | [] => base
  | (key, value) :: rest =>
    Fields.merge (Fields.put base key (value.laidOn (Fields.get? base key))) rest

def laidOn : Data → Option Data → Data
  | .record fields, some (.record base) => .record (Fields.merge base fields)
  | value, _ => value

end

/-- Whether some row of so many keys leads to a record in both records. -/
def Fields.meet : Nat → List (String × Data) → List (String × Data) → Bool
  | 0, _, _ => true
  | steps + 1, base, higher => higher.any fun (key, _) =>
    match Fields.get? base key, Fields.get? higher key with
    | some (.record lower), some (.record upper) => Fields.meet steps lower upper
    | _, _ => false

def at? (value : Data) : List String → Option Data
  | [] => some value
  | key :: rest =>
    match value with
    | .record fields => (Fields.get? fields key).bind fun inner => inner.at? rest
    | _ => none

def isRecord : Data → Bool
  | .record _ => true
  | _ => false

end ConfigIndex.Data
