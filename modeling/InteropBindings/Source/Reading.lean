import InteropBindings.Source.Token

/-!
# Reading tokens

A rule of the grammar is a `Reading`: it looks at the current token, moves forward, and yields a result or a syntax
error. A rule that fails stays where it failed; `attempt` and `ahead` return to where they started.
-/

namespace InteropBindings.Source

/-- What surrounds the text that is being read. -/
structure Mode where
  /-- Types are part of the language. -/
  typed : Bool
  /-- The whole file consists of declarations. -/
  declarationFile : Bool
  /-- Declarations here describe code elsewhere. -/
  ambient : Bool
  /-- Inside the body of a generator. -/
  generator : Bool := false
  /-- The word `in` is an operator. -/
  inOperator : Bool := true
  /-- Types are not conditional. -/
  plainTypes : Bool := false
  /-- A colon belongs to a conditional expression around. -/
  colonAhead : Bool := false

/-- The current token, whether a line ended before it, and the text from its start and from its end on. -/
structure Cursor where
  token : Token
  lineBefore : Bool
  here : List Char
  rest : List Char

/-- The token that follows some text. -/
def Cursor.ofText (cs : List Char) : Cursor :=
  let (ended, here) := skipGap .blank false cs
  let (token, rest) := scanToken here
  ⟨token, ended, here, rest⟩

/-- The cursor at the following token. -/
def Cursor.next (c : Cursor) : Cursor := Cursor.ofText c.rest

/-- Text that does not follow the grammar, with what was expected instead. -/
structure SyntaxError where
  expected : String
deriving DecidableEq, Repr

/-- A rule of the grammar. -/
abbrev Reading := ReaderT Mode (EStateM SyntaxError Cursor)

variable {α β : Type}

/-! ## Looking and moving -/

/-- The current token. -/
def token : Reading Token := return (← get).token

/-- Moves to the following token. -/
def advance : Reading Unit := modify Cursor.next

/-- Fails, naming what was expected. -/
def expected (what : String) : Reading α := throw ⟨what⟩

/-- Reads in another mode. -/
def inMode (change : Mode → Mode) (rule : Reading α) : Reading α := withReader change rule

/-- Whether types are part of the language. -/
def typed : Reading Bool := return (← read).typed

/-- Whether the current token begins a line. -/
def onNewLine : Reading Bool := return (← get).lineBefore

/-- Whether the current token stands on the line of the one before. -/
def onSameLine : Reading Bool := return !(← get).lineBefore

/-- Whether the current token is a given sign. -/
def atSign (sign : String) : Reading Bool := return (← token) == .sign sign

/-- Whether the current token is a given word. -/
def atWord (word : String) : Reading Bool := return (← token) == .word word

/-- Whether a token is a word. -/
def Token.isName : Token → Bool
  | .word _ => true
  | _ => false

/-- Whether a token is a word that can be referred to. -/
def Token.isReference : Token → Bool
  | .word w => !isReserved w
  | _ => false

/-- Whether the current token is any word. -/
def atName : Reading Bool := return (← token).isName

/-- Whether the current token is a word that can be referred to. -/
def atReference : Reading Bool := return (← token).isReference

/-- The cursor at the token after the current one. -/
def following : Reading Cursor := return (← get).next

/-- Whether the token after the current one is a given sign. -/
def beforeSign (sign : String) : Reading Bool := return (← following).token == .sign sign

/-- Whether the token after the current one is a given word. -/
def beforeWord (word : String) : Reading Bool := return (← following).token == .word word

/-- Moves past a sign if it is the current token. -/
def takeSign (sign : String) : Reading Bool := do
  if ← atSign sign then advance; return true else return false

/-- Moves past a word if it is the current token. -/
def takeWord (word : String) : Reading Bool := do
  if ← atWord word then advance; return true else return false

/-- Moves past a sign or fails. -/
def needSign (sign : String) : Reading Unit := do
  unless ← takeSign sign do expected sign

/-- Moves past a word or fails. -/
def needWord (word : String) : Reading Unit := do
  unless ← takeWord word do expected word

/-- Whether the file has ended. -/
def atFinish : Reading Bool := return (← token) == .finish

/-- Whether a statement may end here: at a semicolon, before a closing brace, at the end of a line or of the file. -/
def atEnd : Reading Bool := do
  return (← onNewLine) || match ← token with
    | .sign s => s == ";" || s == "\x7d"
    | .finish => true
    | _ => false

/-- Ends a statement if it may end here, moving past a semicolon. -/
def takeEnd : Reading Bool := do
  if ← takeSign ";" then return true else atEnd

/-- Ends a statement or fails. -/
def needEnd : Reading Unit := do
  unless ← takeEnd do expected ";"

/-- Any word. -/
def name : Reading String := do
  match ← token with
  | .word w => advance; return w
  | _ => expected "a name"

/-! ## Combining rules -/

/-- Tries a rule, and returns to the start when it fails or yields nothing. -/
def attempt (rule : Reading (Option α)) : Reading (Option α) := fun mode start =>
  match rule mode start with
  | .ok (some a) c => .ok (some a) c
  | _ => .ok none start

/-- Asks a question that is answered further on, and returns to the start. -/
def ahead (rule : Reading Bool) : Reading Bool := fun mode start =>
  match rule mode start with
  | .ok b _ => .ok b start
  | .error e c => .error e c

/-- Repeats a step that either goes on or is done, at most `budget` times. -/
def repeating : (budget : Nat) → (step : α → Reading (α ⊕ β)) → α → Reading β
  | 0, _, _ => expected "less"
  | budget + 1, step, a => do
    match ← step a with
    | .inl a => repeating budget step a
    | .inr b => return b

/-- Repeats a rule while a condition holds and gathers the results. -/
def gather (budget : Nat) (goesOn : Reading Bool) (rule : Reading α) : Reading (List α) :=
  repeating budget (fun gathered => do
    if ← goesOn then return .inl ((← rule) :: gathered) else return .inr gathered.reverse) []

/-- Repeats a rule while a condition holds. -/
def skipping (budget : Nat) (goesOn : Reading Bool) (rule : Reading Unit) : Reading Unit :=
  repeating budget (fun () => do if ← goesOn then rule; return .inl () else return .inr ()) ()

/-- Elements with commas between them, up to a closing token that is not passed; a last comma is allowed. -/
def commaList (budget : Nat) (closed : Reading Bool) (rule : Reading α) : Reading (List α) :=
  repeating budget (fun gathered => do
    if ← closed then return .inr gathered.reverse
    let a ← rule
    if ← closed then return .inr (a :: gathered).reverse
    needSign ","
    return .inl (a :: gathered)) []

/-! ## Names -/

/-- A word that can be bound or referred to. Words reserved only in some places are let through. -/
def identifier : Reading String := do
  match ← token with
  | .word w =>
    if w == "await" then
      if (← read).ambient then advance; return w else expected "a name"
    else if w == "this" then
      if ← typed then advance; return w else expected "a name"
    else if reservedWords.contains w then expected "a name"
    else advance; return w
  | _ => expected "a name"

end InteropBindings.Source
