import Mathlib.Data.Rat.Floor

/-!
# Replies

The part of HTTP and JSON the handlers answer with.
-/

namespace NeuralMesh

inductive StatusCode where
  | ok | badRequest | unauthorized | paymentRequired | notFound | internalServerError
  deriving DecidableEq, Repr

inductive Json where
  | null
  | bool (b : Bool)
  | num (x : ℚ)
  | str (s : String)
  | arr (items : List Json)
  | obj (fields : List (String × Json))

namespace Json

/-- An `Option` that serialises as `null` when absent. -/
def ofOption {α : Type} (f : α → Json) (x : Option α) : Json := x.elim null f

def int (n : Int) : Json := num n

/-- The member of an object. -/
def get? (name : String) : Json → Option Json
  | obj fields => fields.lookup name
  | _ => none

def asStr : Json → Option String
  | str s => some s
  | _ => none

/-- `as_f64` -/
def asNum : Json → Option ℚ
  | num x => some x
  | _ => none

/-- `value[name]`: `null` where there is no such member. -/
def index (value : Json) (name : String) : Json := (value.get? name).getD .null

/-- `as_i64` of a number that was written as an integer. -/
def asI64 : Json → Option Int
  | num x => if x.den = 1 ∧ -2 ^ 63 ≤ x.num ∧ x.num < 2 ^ 63 then some x.num else none
  | _ => none

/-- `as_u64` -/
def asU64 : Json → Option Nat
  | num x => if x.den = 1 ∧ 0 ≤ x.num ∧ x.num < 2 ^ 64 then some x.num.toNat else none
  | _ => none

theorem asStr_ofOption (x : Option String) : (ofOption str x).asStr = x := by cases x <;> rfl

theorem asNum_ofOption (x : Option ℚ) : (ofOption num x).asNum = x := by cases x <;> rfl

/-- An integer is no text. -/
theorem asStr_ofOption_int (x : Option Int) : (ofOption int x).asStr = none := by cases x <;> rfl

theorem asI64_ofOption (x : Option Int) :
    (ofOption int x).asI64 = x.filter fun n => -2 ^ 63 ≤ n ∧ n < 2 ^ 63 := by
  cases x with
  | none => rfl
  | some n =>
      have hint : ((n : ℚ).den = 1) ∧ (n : ℚ).num = n := ⟨Rat.den_intCast n, Rat.num_intCast n⟩
      simp only [ofOption, Option.elim_some, int, asI64, hint, true_and, Option.filter_some,
        decide_eq_true_eq]

end Json

/-- A request with a JSON body. -/
structure HttpRequest where
  url : String
  headers : List (String × String)
  body : Json

namespace HttpRequest

/-- `headers.get(name)`; header names have no case, and `name` is in lower case. -/
def header (r : HttpRequest) (name : String) : Option String :=
  (r.headers.find? fun h => h.1.toLower = name).map Prod.snd

/-- `HeaderValue::to_str`: nothing but visible ASCII, blanks and tabs. -/
def headerText (value : String) : Option String :=
  if value.toList.all fun c => c = '\t' ∨ (32 ≤ c.toNat ∧ c.toNat < 127) then some value else none

end HttpRequest

/-- What a handler answers. -/
structure Reply where
  status : StatusCode
  body : Json

namespace Reply

/-- `Ok(Json(..))` -/
def json (fields : List (String × Json)) : Reply := ⟨.ok, .obj fields⟩

/-- `Err(status)` -/
def error (status : StatusCode) : Reply := ⟨status, .null⟩

/-- `Err((INTERNAL_SERVER_ERROR, Json({"error": "db_error"})))` -/
def dbError : Reply := ⟨.internalServerError, .obj [("error", .str "db_error")]⟩

end Reply

/-- `format!("{:.4}", x)`: four decimals, ties to even. -/
def fixed4 (x : ℚ) : String :=
  let scaled := |x| * 10000
  let below := ⌊scaled⌋.toNat
  let rest := scaled - below
  let n := if 1 / 2 < rest ∨ (rest = 1 / 2 ∧ below % 2 = 1) then below + 1 else below
  let digits := toString (n % 10000)
  (if x < 0 then "-" else "") ++ toString (n / 10000) ++ "." ++
    "".pushn '0' (4 - digits.length) ++ digits

/-- `strip_prefix` -/
def stripPrefix (start text : String) : Option String :=
  if start.toList.isPrefixOf text.toList then
    some (String.ofList (text.toList.drop start.toList.length))
  else none

theorem stripPrefix_append (start rest : String) :
    stripPrefix start (start ++ rest) = some rest := by
  rw [stripPrefix, String.toList_append, List.drop_left,
    if_pos (List.isPrefixOf_iff_prefix.mpr (List.prefix_append _ _)), String.ofList_toList]

/-- `trim_end_matches('/')` -/
def trimEndSlashes (text : String) : String :=
  String.ofList (text.toList.reverse.dropWhile (· = '/')).reverse

/-- `n as i32` of an unsigned value: the low 32 bits, in two's complement. -/
def asI32 (n : Nat) : Int := (BitVec.ofNat 32 n).toInt

theorem asI32_of_lt {n : Nat} (hn : n < 2 ^ 31) : asI32 n = n := by
  rw [asI32, BitVec.toInt_ofNat']
  apply Int.bmod_eq_of_le <;> omega

theorem asI32_le (n : Nat) : asI32 n ≤ n := by
  have hmod : n % 2 ^ 32 ≤ n := Nat.mod_le _ _
  rw [asI32, BitVec.toInt_eq_toNat_cond, BitVec.toNat_ofNat]
  split <;> omega

/-- An `i32` result where overflow wraps, as in a release build. -/
def wrapI32 (n : Int) : Int := (BitVec.ofInt 32 n).toInt

/-- `n as i64` of an unsigned value. -/
def asI64 (n : Nat) : Int := (BitVec.ofNat 64 n).toInt

/-- `x as i32` of a float: towards zero, saturating. -/
def truncI32 (x : ℚ) : Int :=
  max (-2 ^ 31) (min (2 ^ 31 - 1) (if 0 ≤ x then ⌊x⌋ else ⌈x⌉))

end NeuralMesh
