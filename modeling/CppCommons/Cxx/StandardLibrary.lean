import CppCommons.Cxx.ByteString

/-!
# Maps and clocks of the standard library

A `std::unordered_map` keyed by strings is a finite map, with no order on its
entries.  A `std::chrono::steady_clock` reading is an exact number of
nanoseconds.
-/

namespace CppCommons
namespace Cxx

abbrev StringMap (A : Type) := Finmap (fun _ : Bytes => A)

/-- A `steady_clock::time_point` or `duration`, in nanoseconds. -/
abbrev Nanoseconds := Int

/-- A `std::chrono::seconds` value converted to the clock's unit. -/
def nanoseconds (seconds : Int) : Nanoseconds :=
  seconds * 1000000000

end Cxx
end CppCommons
