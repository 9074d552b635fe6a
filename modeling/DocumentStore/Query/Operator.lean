/-!
The operators of where clauses.
-/

namespace DocumentStore

inductive Operator where
  | present
  | oneOf
  | noneOf
  | eq
  | ne
  | lt
  | lte
  | gt
  | gte
  | regex
  | options
  | select
  | dontSelect
  | inQuery
  | notInQuery
  | all
  | relatedTo
deriving DecidableEq

namespace Operator

def key : Operator → String
  | .present => "$exists"
  | .oneOf => "$in"
  | .noneOf => "$nin"
  | .eq => "$eq"
  | .ne => "$ne"
  | .lt => "$lt"
  | .lte => "$lte"
  | .gt => "$gt"
  | .gte => "$gte"
  | .regex => "$regex"
  | .options => "$options"
  | .select => "$select"
  | .dontSelect => "$dontSelect"
  | .inQuery => "$inQuery"
  | .notInQuery => "$notInQuery"
  | .all => "$all"
  | .relatedTo => "$relatedTo"

def every : List Operator :=
  [.present, .oneOf, .noneOf, .eq, .ne, .lt, .lte, .gt, .gte, .regex, .options, .select,
    .dontSelect, .inQuery, .notInQuery, .all, .relatedTo]

def ofKey? (key : String) : Option Operator := every.find? (·.key == key)

theorem ofKey?_key (op : Operator) : ofKey? op.key = some op := by cases op <;> decide

theorem head?_key (op : Operator) : op.key.toList.head? = some '$' := by cases op <;> decide

end Operator

end DocumentStore
