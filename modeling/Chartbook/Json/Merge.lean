import Chartbook.Json.Basic

/-!
# Merging JSON values

Laying one value over another: objects are merged member by member, anything
else is replaced.
-/

namespace Chartbook.Json

mutual

def merge (base patch : Json) : Json :=
  match patch with
  | object members =>
      match base with
      | object kept => object (mergeMembers kept members)
      | _ => object members
  | v => v

/-- The members of a patch put into `base` one after the other; an absent member
counts as null. -/
def mergeMembers (base : List (String × Json)) :
    List (String × Json) → List (String × Json)
  | [] => base
  | (k, v) :: rest =>
      mergeMembers (putPair k (merge ((base.lookup k).getD null) v) base) rest

end

end Chartbook.Json
