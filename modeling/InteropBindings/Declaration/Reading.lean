import InteropBindings.Declaration.Lowering
import InteropBindings.Source.Reading

/-!
# Reading declaration files

The text of a file is parsed and its declarations are taken out. The parser may be any function of the path and the
text.
-/

namespace InteropBindings

/-- The items of a text that belongs to a path, or what was expected instead. -/
abbrev Parser := Path → String → Except Source.SyntaxError (List Source.Item)

/-- The declarations of a text that belongs to a path. -/
def DeclarationFile.read (parser : Parser) (path : Path) (text : String) :
    Except Source.SyntaxError DeclarationFile := do
  return ⟨path, Item.ofItems (← parser path text)⟩

end InteropBindings
