/-! The depth of calls, counted from parentheses alone. The count looks at no other character and
may fall below zero; it is made before a text is read. -/
namespace Tabletop.Nesting

def limit : Nat := 20

def step (depth : Int) (c : Char) : Int :=
  if c = '(' then depth + 1 else if c = ')' then depth - 1 else depth

def depth (text : List Char) : Int := text.foldl step 0

/-- The characters before the first one that takes the running depth past the limit. -/
def tooDeepFrom (depth : Int) : List Char → Option (List Char)
  | [] => none
  | c :: rest =>
    if limit < step depth c then some []
    else (tooDeepFrom (step depth c) rest).map (c :: ·)

def tooDeep? (text : List Char) : Option (List Char) := tooDeepFrom 0 text

theorem depth_append (before after : List Char) :
    depth (before ++ after) = after.foldl step (depth before) := List.foldl_append

end Tabletop.Nesting
