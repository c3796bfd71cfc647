import CommandGrammar.Error
import CommandGrammar.Multimap
import CommandGrammar.Value

/-!
# Contexts

The values a line was read as, under the keys of what read them.
-/

namespace CommandGrammar

/-- Values under keys, several under one if they were read so. -/
structure Context where
  values : Multimap Value

namespace Context

/-- The key that marks a context as one for completing a line. -/
def completionKey : String := "tab-complete-50456"

/-- No values. -/
def empty : Context := ⟨{}⟩

instance : Inhabited Context := ⟨empty⟩

instance : BEq Context := ⟨fun a b => a.values == b.values⟩

/-- The context with a value put behind those under its key. -/
def put (c : Context) (key : String) (v : Value) : Context :=
  ⟨c.values.insert key v⟩

def forCompletion : Context :=
  empty.put completionKey (.bool true)

/-- The value under a key, if it is the only one. -/
def one? (c : Context) (key : String) : Option Value :=
  match c.values.get? key with
  | some [v] => some v
  | _ => none

def all (c : Context) (key : String) : List Value :=
  c.values.values key

def one (c : Context) (key : String) : Except ContextError Value :=
  match c.values.get? key with
  | some [v] => .ok v
  | some (_ :: w :: vs) => .error (.ambiguous key ((w :: vs).length + 1))
  | _ => .error (.notFound key)

def has (c : Context) (key : String) : Bool :=
  c.values.contains key

def isCompleting (c : Context) : Bool :=
  c.has completionKey

/-- The keys, in order. -/
def keys (c : Context) : List String :=
  c.values.keys

end Context

end CommandGrammar
