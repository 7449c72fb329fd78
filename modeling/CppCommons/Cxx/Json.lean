import CppCommons.Cxx.ByteString

/-!
# JSON values

`nlohmann::json` is a third-party library.  Its value type and the member
operations used by the sources are modelled here; its text format stays a
parameter, the pair of functions `JsonText`.
-/

namespace CppCommons
namespace Cxx

/--
A JSON value.  The library compares its signed and unsigned integers by value,
so both are `integer`; a `double` is its bit pattern.  An object lists its
members in the key order of `std::map`.
-/
inductive Json where
  | null
  | boolean (b : Bool)
  | integer (n : Int)
  | float (bits : UInt64)
  | string (s : Bytes)
  | array (items : List Json)
  | object (members : List (Bytes × Json))

/--
The library's text format.  Both directions signal failure only by a
`json::exception`, of which the text of `what()` is kept.
-/
structure JsonText where
  parse : Bytes -> Except String Json
  dump : Json -> Except String Bytes

namespace Json

/-- `type_name()`, as it occurs in exception texts. -/
def typeName : Json -> String
  | null => "null"
  | boolean _ => "boolean"
  | integer _ => "number"
  | float _ => "number"
  | string _ => "string"
  | array _ => "array"
  | object _ => "object"

/-- `j.contains(key)`; false unless `j` is an object. -/
def contains (j : Json) (key : Bytes) : Bool :=
  match j with
  | object members => members.any (fun m => m.fst == key)
  | _ => false

def keyLess (a b : Bytes) : Bool :=
  a.lex b (fun x y => decide (x < y))

def insertMember (key : Bytes) (value : Json) :
    List (Bytes × Json) -> List (Bytes × Json)
  | [] => [(key, value)]
  | m :: rest =>
      if m.fst == key then (key, value) :: rest
      else if keyLess key m.fst then (key, value) :: m :: rest
      else m :: insertMember key value rest

/-- `j[key] = value`.  A null value becomes an object first. -/
def setMember (j : Json) (key : Bytes) (value : Json) : Except String Json :=
  match j with
  | object members => .ok (object (insertMember key value members))
  | null => .ok (object [(key, value)])
  | other =>
      .error ("[json.exception.type_error.305] " ++
        "cannot use operator[] with a string argument with " ++ typeName other)

theorem insertMember_perm {key : Bytes} (value : Json) {members : List (Bytes × Json)}
    (h : contains (object members) key = false) :
    (insertMember key value members).Perm ((key, value) :: members) := by
  induction members with
  | nil => exact List.Perm.refl _
  | cons m rest ih =>
      simp only [contains, List.any_cons, Bool.or_eq_false_iff] at h
      unfold insertMember
      rw [if_neg (by rw [h.left]; decide)]
      by_cases hless : keyLess key m.fst = true
      · rw [if_pos hless]
      · rw [if_neg hless]
        exact ((ih h.right).cons m).trans (List.Perm.swap _ _ _)

end Json

end Cxx
end CppCommons
