import CommandGrammar.Binary64
import CommandGrammar.Calendar.DateTime
import CommandGrammar.Decimal
import CommandGrammar.Duration
import CommandGrammar.IpAddress
import CommandGrammar.Text.Quoted
import CommandGrammar.Url
import CommandGrammar.Uuid

/-!
# Values

The values that reading a command line stores, each with a text of its own. A shared object has no
text and is known by what it stands for: two of them are the same only if they are one object.
-/

namespace CommandGrammar

/-- The names of a registered command: its number within its dispatcher, the alias it is known by,
and all aliases in order, the former among them. -/
structure CommandName where
  id : Nat
  primary : String
  aliases : List String
  deriving DecidableEq, Repr

/-- A shared object: a constant with a number that no other constant has, or the command that a
subcommand node, known by its key, resolved. -/
inductive Handle where
  | constant (id : Nat) (name : String)
  | command (node : String) (name : CommandName)
  deriving DecidableEq, Repr

/-- A value. -/
inductive Value where
  | bool (b : Bool)
  | int (n : Int32)
  | long (n : Int64)
  | double (x : Float)
  | bigInt (n : Int)
  | bigDecimal (d : Decimal)
  | string (s : String)
  | uuid (u : Uuid)
  | url (u : Url)
  | ip (a : IpAddress)
  | dateTime (dt : DateTime)
  | duration (d : Duration)
  | any (h : Handle)

namespace Value

instance : Inhabited Value := ⟨.bool true⟩

/-- Equality of values: a number that is none differs from itself, decimals are equal as numbers,
and addresses of resources as text. -/
def same : Value → Value → Bool
  | .bool a, .bool b => a == b
  | .int a, .int b => a == b
  | .long a, .long b => a == b
  | .double a, .double b => a == b
  | .bigInt a, .bigInt b => a == b
  | .bigDecimal a, .bigDecimal b => a.sameNumber b
  | .string a, .string b => a == b
  | .uuid a, .uuid b => a == b
  | .url a, .url b => a.text == b.text
  | .ip a, .ip b => a == b
  | .dateTime a, .dateTime b => a == b
  | .duration a, .duration b => a == b
  | .any a, .any b => a == b
  | _, _ => false

instance : BEq Value := ⟨same⟩

def typeName : Value → String
  | .bool _ => "bool"
  | .int _ => "int"
  | .long _ => "long"
  | .double _ => "double"
  | .bigInt _ => "bigint"
  | .bigDecimal _ => "bigdecimal"
  | .string _ => "string"
  | .uuid _ => "uuid"
  | .url _ => "url"
  | .ip _ => "ip"
  | .dateTime _ => "datetime"
  | .duration _ => "duration"
  | .any _ => "any"

def text : Value → String
  | .bool b => if b then "true" else "false"
  | .int n => toString n.toInt
  | .long n => toString n.toInt
  | .double x => Binary64.text x
  | .bigInt n => toString n
  | .bigDecimal d => d.text
  | .string s => s
  | .uuid u => u.text
  | .url u => u.text
  | .ip a => a.text
  | .dateTime dt => dt.text
  | .duration d => d.text
  | .any _ => "<value>"

/-- The text of a value inside a description of it: strings are quoted, and a blank stands between
date and time. -/
def inner : Value → String
  | .string s => Text.quoted s
  | .dateTime dt => dt.textWith " "
  | .any _ => ".."
  | v => v.text

/-- The kind of a value as it is named in a description. -/
def constructorName : Value → String
  | .bool _ => "Bool"
  | .int _ => "Int"
  | .long _ => "Long"
  | .double _ => "Double"
  | .bigInt _ => "BigInt"
  | .bigDecimal _ => "BigDecimal"
  | .string _ => "String"
  | .uuid _ => "Uuid"
  | .url _ => "Url"
  | .ip _ => "Ip"
  | .dateTime _ => "DateTime"
  | .duration _ => "Duration"
  | .any _ => "Any"

/-- A description of a value: its kind and its text in parentheses. -/
def describe (v : Value) : String :=
  v.constructorName ++ "(" ++ v.inner ++ ")"

/-- The truth value held. -/
def asBool? : Value → Option Bool
  | .bool b => some b
  | _ => none

/-- The 32-bit number held. -/
def asInt? : Value → Option Int32
  | .int n => some n
  | _ => none

/-- The 64-bit number held; one of 32 bits is one too. -/
def asLong? : Value → Option Int64
  | .int n => some n.toInt64
  | .long n => some n
  | _ => none

/-- The floating point number held. -/
def asDouble? : Value → Option Float
  | .double x => some x
  | _ => none

/-- The integer of any size held. -/
def asBigInt? : Value → Option Int
  | .bigInt n => some n
  | _ => none

def asBigDecimal? : Value → Option Decimal
  | .bigDecimal d => some d
  | _ => none

def asString? : Value → Option String
  | .string s => some s
  | _ => none

/-- The identifier held. -/
def asUuid? : Value → Option Uuid
  | .uuid u => some u
  | _ => none

/-- The address of a resource held. -/
def asUrl? : Value → Option Url
  | .url u => some u
  | _ => none

/-- The internet address held. -/
def asIp? : Value → Option IpAddress
  | .ip a => some a
  | _ => none

def asDateTime? : Value → Option DateTime
  | .dateTime dt => some dt
  | _ => none

def asDuration? : Value → Option Duration
  | .duration d => some d
  | _ => none

end Value

end CommandGrammar
