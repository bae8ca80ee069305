/-!
# Reading from the front

A reader takes what it stands for from the front of the characters and gives back the rest.
-/
namespace VirtualPad

abbrev Reader (α : Type) := List Char → Option (α × List Char)

namespace Reader

def expect (c : Char) : List Char → Option (List Char)
  | [] => none
  | d :: rest => if d = c then some rest else none

theorem expect_cons (c : Char) (rest : List Char) : expect c (c :: rest) = some rest :=
  if_pos rfl

end Reader
end VirtualPad
