import DocumentStore.Json.Writer
import DocumentStore.Query.Operator
import DocumentStore.Request

/-!
What can go wrong with a request, as causes; and the one place where their texts are worded.
-/

namespace DocumentStore

inductive SettingsFault where
  | noRoom
  | defaultExceedsMaximum (default maximum : Nat)
  | idLength (length : Nat)

/-- The part of an operator's parameter that is missing or of the wrong kind. -/
inductive ParameterPart where
  | className
  | key
  | query
  | objectPointer
  | pattern

inductive QueryFault where
  | clauseNotObject (found : Value)
  | branchesNotList (key : String) (found : Value)
  | paramsNotObject (found : Value)
  | window (name : String)
  | parameter (op : Operator) (part : ParameterPart)
  | pattern (source : String)

inductive OperandFault where
  | missing (name : String)
  | amountNotNumber (found : Value)
  | notList (name : String) (found : Value)
  | notIncrementable (found : Value)
  | entryNotOperator (found : Value)
  | overflow (sign : Number.Overflow)

inductive DocumentFault where
  | notObject (found : Value)
  | needsObjectId (operation : Operation) (className : String)
  | withoutResults (className : String)
  | withoutCount (className : String)

inductive Fault where
  | unreadable
  | settings (reason : SettingsFault)
  | rejected (value : Value)
  | unknownOperator (tag : Value)
  | notAList (field : String)
  | operand (field : String) (reason : OperandFault)
  | query (reason : QueryFault)
  | document (reason : DocumentFault)
  | notInstalled

open Json (written)

def SettingsFault.message : SettingsFault → String
  | .noRoom => "max_limit must be positive"
  | .defaultExceedsMaximum default maximum =>
    "default_limit " ++ Decimal.ofIntText default ++ " exceeds max_limit " ++
      Decimal.ofIntText maximum
  | .idLength length =>
    "object_id_length must be between 1 and 32, got " ++ Decimal.ofIntText length

def ParameterPart.message : ParameterPart → String
  | .className => "needs a className"
  | .key => "needs a key"
  | .query => "needs a query"
  | .objectPointer => "needs an object pointer"
  | .pattern => "expects a string pattern"

def QueryFault.message : QueryFault → String
  | .clauseNotObject found => "where clause must be an object, got " ++ written found
  | .branchesNotList key found => key ++ " expects an array of clauses, got " ++ written found
  | .paramsNotObject found => "read parameters must be an object, got " ++ written found
  | .window name => name ++ " must be a non-negative integer"
  | .parameter op part => op.key ++ " " ++ part.message
  | .pattern source => "invalid $regex " ++ Text.quoted source

def OperandFault.message : OperandFault → String
  | .missing name => "missing `" ++ name ++ "`"
  | .amountNotNumber found => "`amount` must be a number, got " ++ written found
  | .notList name found => "`" ++ name ++ "` must be an array, got " ++ written found
  | .notIncrementable found => "cannot increment " ++ written found
  | .entryNotOperator found => "batch entry " ++ written found ++ " is not an operator"
  | .overflow .positive => "inf is not a finite number"
  | .overflow .negative => "-inf is not a finite number"

def DocumentFault.message : DocumentFault → String
  | .notObject found => "expected a JSON object, got " ++ written found
  | .needsObjectId operation className =>
    operation.name ++ " on " ++ className ++ " needs an objectId"
  | .withoutResults className => "query on " ++ className ++ " answered without results"
  | .withoutCount className => "count on " ++ className ++ " answered without a count"

def Fault.message : Fault → String
  | .unreadable => "Serialization error"
  | .settings reason => "Initialization error: " ++ reason.message
  | .rejected value => "Hook rejected the operation: " ++ written value
  | .unknownOperator (.str name) => "Unknown update operator: " ++ name
  | .unknownOperator tag => "Unknown update operator: " ++ written tag
  | .notAList field => "Field " ++ field ++ " is not an array"
  | .operand field reason => "Invalid operand for field " ++ field ++ ": " ++ reason.message
  | .query reason => "Invalid query: " ++ reason.message
  | .document reason => "Invalid document: " ++ reason.message
  | .notInstalled => "No backend is installed"

end DocumentStore
