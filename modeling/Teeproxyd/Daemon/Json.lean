import Mathlib.Data.Nat.Notation

/-!
# JSON values

The part of `serde_json::Value` that the request handlers read and write.
-/

namespace Teeproxyd

/-- `serde_json::Number`: an unsigned integer, a negative integer or a float.
The handlers never look inside a float. -/
inductive Number
  | posInt (n : UInt64)
  | negInt (n : Int)
  | float
deriving DecidableEq, Repr

/-- `serde_json::Value`; the keys of an object are distinct. -/
inductive Value
  | null
  | bool (b : Bool)
  | number (n : Number)
  | string (s : String)
  | array (vs : List Value)
  | object (kvs : List (String × Value))

namespace Value

/-- `value[key]`, which is `null` when there is nothing under the key. -/
def index (v : Value) (key : String) : Value :=
  match v with
  | object kvs => ((kvs.find? fun kv => kv.1 = key).map Prod.snd).getD null
  | _ => null

def asStr : Value → Option String
  | string s => some s
  | _ => none

def asU64 : Value → Option UInt64
  | number (.posInt n) => some n
  | _ => none

def ofNat (n : ℕ) : Value := number (.posInt (UInt64.ofNat n))

end Value

end Teeproxyd
