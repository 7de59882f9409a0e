import RegistryBundle.Failure
import RegistryBundle.Settings.Setting

/-!
# Templates

A template is a text with fields in braces. A field names a setting or a variable of the
environment, goes on to one of its parts, and may say how wide the text is to be. Doubled braces
stand for themselves.

* `Template.pieces` takes a text apart: `pieces_of_no_brace`;
* `Template.fill` puts the values in the place of the fields.
-/

namespace RegistryBundle.Template

open Reading (Taken)

/-- A step from a value to a part of it. -/
inductive Step where
  /-- A part behind a point. -/
  | part (name : List Char)
  /-- A part in brackets. -/
  | item (name : List Char)
deriving DecidableEq, Repr

/-- A field: what it begins with, the steps from there, and how the value is written. -/
structure Field where
  root : List Char
  steps : List Char
  form : Option Char := none
  layout : List Char := []
deriving DecidableEq, Repr

/-- A piece of a template. -/
inductive Piece where
  | literal (c : Char)
  | field (f : Field)
  /-- The place where a template is no template. -/
  | fault
deriving DecidableEq, Repr

/-! ## The text of a template -/

/-- A name, up to the character that ends it; what is in brackets does not end it. -/
def fieldName : Bool → List Char → Except Breach (Taken (List Char))
  | _, [] => .error .range
  | true, c :: rest => do
    let (cs, left) ← fieldName (c != ']') rest
    return (c :: cs, left)
  | false, c :: rest =>
    if c = '\x7b' then .error .range
    else if c = '\x7d' || c = ':' || c = '!' then .ok ([], c :: rest)
    else do
      let (cs, left) ← fieldName (c == '[') rest
      return (c :: cs, left)

/-- A layout, up to the brace that ends the field; braces inside it are no layout. -/
def fieldLayout : List Char → Except Breach (Taken (List Char))
  | [] => .error .range
  | c :: rest =>
    if c = '\x7b' then .error .range
    else if c = '\x7d' then .ok ([], rest)
    else do
      let (cs, left) ← fieldLayout rest
      return (c :: cs, left)

/-- The form and the layout of a field, and the brace that ends it. -/
def fieldEnd : List Char → Except Breach (Taken (Option Char × List Char))
  | '!' :: form :: '\x7d' :: rest => .ok ((some form, []), rest)
  | '!' :: form :: ':' :: rest => do
    let (layout, left) ← fieldLayout rest
    return ((some form, layout), left)
  | ':' :: rest => do
    let (layout, left) ← fieldLayout rest
    return ((none, layout), left)
  | '\x7d' :: rest => .ok ((none, []), rest)
  | _ => .error .range

/-- A field from behind its brace. -/
def field (cs : List Char) : Except Breach (Taken Field) := do
  let (name, rest) ← fieldName false cs
  let ((form, layout), rest) ← fieldEnd rest
  let root := name.takeWhile fun c => c != '.' && c != '['
  return ({ root := root, steps := name.drop root.length, form := form, layout := layout }, rest)

/-- The pieces of a template, up to its end or its first fault; `fuel` bounds them. -/
def piecesFrom : Nat → List Char → List Piece
  | 0, _ => [.fault]
  | _, [] => []
  | fuel + 1, c :: rest =>
    if (c = '\x7b' || c = '\x7d') && rest.head? == some c then
      .literal c :: piecesFrom fuel (rest.drop 1)
    else if c = '\x7b' then
      match field rest with
      | .ok (f, rest) => .field f :: piecesFrom fuel rest
      | .error _ => [.fault]
    else if c = '\x7d' then [.fault]
    else .literal c :: piecesFrom fuel rest

/-- The pieces of a template. -/
def pieces (cs : List Char) : List Piece :=
  piecesFrom (cs.length + 1) cs

/-- A part in brackets and what follows it. -/
def bracketed : List Char → Option (Taken (List Char))
  | [] => none
  | c :: rest => if c = ']' then some ([], rest) else (bracketed rest).map fun f => (c :: f.1, f.2)

/-- The first of the steps of a field, and the others. -/
def nextStep : List Char → Except Breach (Taken Step)
  | '.' :: rest =>
    let name := rest.takeWhile fun c => c != '.' && c != '['
    if name.isEmpty then .error .range else .ok (.part name, rest.drop name.length)
  | '[' :: rest =>
    match bracketed rest with
    | some (name, left) => if name.isEmpty then .error .range else .ok (.item name, left)
    | none => .error .range
  | _ => .error .range

/-! ## The value of a field -/

/-- What a template can name. -/
structure Scope where
  /-- The setting of a name at the top. -/
  setting? : String → Option Setting
  /-- The variable of a name. -/
  environment? : String → Option String
  /-- The value of a setting. -/
  evaluate : Setting → Except Breach Value

/-- What a field has reached. -/
inductive Reached where
  | settings
  | environment
  | setting (s : Setting)

namespace Scope

/-- A setting, recipes at the top being cooked. -/
def opened (scope : Scope) (s : Setting) : Except Breach Setting :=
  match s with
  | .later _ => (scope.evaluate s).map .ofValue
  | s => .ok s

/-- The part of a setting below a path of names in any case. -/
def below (scope : Scope) : List String → Setting → Except Breach (Option Setting)
  | [], s => .ok (some s)
  | name :: rest, s => do
    match Setting.child? (← scope.opened s).entries name with
    | some s => below scope rest s
    | none => return none

/-- The setting of a name in any case, whose parts stand between points. -/
def find? (scope : Scope) (name : List Char) : Except Breach (Option Setting) :=
  match Reading.fields '.' name with
  | [] => .ok none
  | head :: rest =>
    match scope.setting? (String.ofList (LetterCase.upperText head)) with
    | some s => scope.below (rest.map String.ofList) s
    | none => .ok none

/-- A part of a setting, in brackets or not. -/
def partOf (inBrackets : Bool) (name : List Char) (s : Setting) : Except Breach Setting :=
  let place := if inBrackets && name.all Char.isDigit then some (Nat.ofDigitChars 10 name 0)
    else none
  match s, place with
  | .group es, none => ((Setting.child? es (String.ofList name)).map .ok).getD (.error .template)
  | .group es, some n => ((Value.find? es (.int n)).map .ok).getD (.error .template)
  | .list items, some n => (items[n]?.map .ok).getD (.error .index)
  | .value (.str t), some n => (t.toList[n]?.map fun c => .ok (.text [c])).getD (.error .index)
  | _, _ => .error (if inBrackets then .operation else .template)

/-- One step on. -/
def step (scope : Scope) : Step → Reached → Except Breach Reached
  | .part name, .settings =>
    match scope.setting? (String.ofList (LetterCase.upperText name)) with
    | some s => .ok (.setting s)
    | none => .error .template
  | .item name, .settings => do
    match ← scope.find? name with
    | some s => return .setting s
    | none => throw .template
  | .item name, .environment =>
    match scope.environment? (String.ofList name) with
    | some t => .ok (.setting (.value (.str t)))
    | none => .error .template
  | .part _, .environment => .error .template
  | .part name, .setting s => do return .setting (← partOf false name (← scope.opened s))
  | .item name, .setting s => do return .setting (← partOf true name (← scope.opened s))

/-- All steps of a field; `fuel` bounds them. -/
def steps (scope : Scope) : Nat → List Char → Reached → Except Breach Reached
  | _, [], x => .ok x
  | 0, _, _ => .error .range
  | fuel + 1, cs, x => do
    let (s, rest) ← nextStep cs
    steps scope fuel rest (← scope.step s x)

/-- What the first name of a field reaches; a number, or nothing, counts what is not there. -/
def start (root : List Char) : Except Breach Reached :=
  if root.all Char.isDigit then .error .index
  else if root = "this".toList then .ok .settings
  else if root = "env".toList then .ok .environment
  else .error .template

/-- The value of a field; all settings or all variables together have none. -/
def valueOf (scope : Scope) (f : Field) : Except Breach Value := do
  match ← scope.steps f.steps.length f.steps (← start f.root) with
  | .setting s => scope.evaluate s
  | _ => return .foreign

end Scope

/-! ## The text of a value -/

/-- A text in ASCII: other characters are written by their code points. -/
def inAscii (cs : List Char) : List Char :=
  cs.flatMap fun c => if LetterCase.isAscii c then [c] else Quoted.escape (fun _ => false) '\'' c

/-- A value in the form that a field asks for. -/
def formed (form : Option Char) (v : Value) : Except Breach Value :=
  let written (cs : Option (List Char)) : Except Breach Value :=
    match cs with
    | some cs => .ok (.str (String.ofList cs))
    | none => .error .range
  match form with
  | none => .ok v
  | some 's' => written (v.text?.map String.toList)
  | some 'r' => written v.quoted?
  | some 'a' => written (v.quoted?.map inAscii)
  | some _ => .error .range

/-- How a text is laid out: what fills it up, on which side, to which width,
and how much of it is kept. -/
structure Layout where
  fill : Char := ' '
  side : Option Char := none
  sign : Option Char := none
  width : Nat := 0
  limit : Option Nat := none
deriving DecidableEq, Repr

/-- Whether a character says on which side a text stands. -/
def isSide (c : Char) : Bool :=
  c == '<' || c == '>' || c == '^' || c == '='

/-- The filling and the side at the front of a layout. -/
def fillAndSide : List Char → Layout × List Char
  | c :: d :: rest =>
    if isSide d then ({ fill := c, side := some d }, rest)
    else if isSide c then ({ side := some c }, d :: rest)
    else ({}, c :: d :: rest)
  | [c] => if isSide c then ({ side := some c }, []) else ({}, [c])
  | [] => ({}, [])

/-- The sign at the front of a layout. -/
def signPart (l : Layout) : List Char → Layout × List Char
  | c :: rest =>
    if c = '+' || c = '-' || c = ' ' then ({ l with sign := some c }, rest) else (l, c :: rest)
  | [] => (l, [])

/-- A zero at the front of a width: `usual` is the side on which zeros stand. -/
def zeroPart (usual : Option Char) (l : Layout) : List Char → Layout × List Char
  | '0' :: rest => (if l.side.isNone then { l with fill := '0', side := usual } else l, rest)
  | cs => (l, cs)

/-- The layout that a text describes, which ends in one of some letters or in none; `usual` is the
side on which zeros stand. -/
def layout? (letters : List Char) (usual : Option Char) (cs : List Char) : Option Layout := do
  let (l, rest) := fillAndSide cs
  let (l, rest) := signPart l rest
  let (l, rest) := zeroPart usual l rest
  let digits := rest.takeWhile Char.isDigit
  let l := { l with width := Nat.ofDigitChars 10 digits 0 }
  let (l, rest) ← match rest.drop digits.length with
    | '.' :: rest =>
      let digits := rest.takeWhile Char.isDigit
      if digits.isEmpty then none
      else some ({ l with limit := some (Nat.ofDigitChars 10 digits 0) }, rest.drop digits.length)
    | rest => some (l, rest)
  match rest with
  | [] => return l
  | [c] => if letters.contains c then return l else none
  | _ => none

/-- A text filled up to a width; `usual` is the side on which it stands if nothing else is said. -/
def padded (usual : Char) (l : Layout) (sign cs : List Char) : List Char :=
  let missing := l.width - (sign.length + cs.length)
  let fill (n : Nat) := List.replicate n l.fill
  match l.side.getD usual with
  | '<' => sign ++ cs ++ fill missing
  | '^' => fill (missing / 2) ++ sign ++ cs ++ fill (missing - missing / 2)
  | '=' => sign ++ fill missing ++ cs
  | _ => fill missing ++ sign ++ cs

/-- The sign of a number. -/
def signOf (l : Layout) (negative : Bool) : List Char :=
  if negative then ['-'] else
    match l.sign with
    | some '+' => ['+']
    | some ' ' => [' ']
    | _ => []

/-- A value as a field lays it out. -/
def laidOut (layout : List Char) (v : Value) : Except Breach (List Char) :=
  if layout.isEmpty then
    match v.text? with
    | some s => .ok s.toList
    | none => .error .range
  else
    let whole (n : Int) : Except Breach (List Char) :=
      match layout? ['d'] (some '=') layout, intText? n.natAbs with
      | some l, some ds => if l.limit.isSome then .error .range else .ok (padded '>' l
          (signOf l (n < 0)) ds)
      | _, _ => .error .range
    match v with
    | .str s =>
      match layout? ['s'] none layout with
      | some l =>
        if l.side == some '=' || l.sign.isSome then .error .range
        else .ok (padded '<' l [] (s.toList.take (l.limit.getD s.length)))
      | none => .error .range
    | .int n => whole n
    | .bool b => whole (if b then 1 else 0)
    | .float _ => .error .range
    | _ => .error .operation

/-- The text of a piece. -/
def Piece.text (scope : Scope) : Piece → Except Breach (List Char)
  | .literal c => .ok [c]
  | .field f => do laidOut f.layout (← formed f.form (← scope.valueOf f))
  | .fault => .error .range

/-- The text of a template, its fields filled in from the first to the last. -/
def fill (scope : Scope) (cs : List Char) : Except Breach String := do
  let texts ← (pieces cs).mapM (Piece.text scope)
  return String.ofList texts.flatten

/-- A text without braces has no fields. -/
theorem pieces_of_no_brace {cs : List Char} (h : ∀ c ∈ cs, c ≠ '\x7b' ∧ c ≠ '\x7d') :
    pieces cs = cs.map .literal := by
  suffices ∀ n, cs.length < n → piecesFrom n cs = cs.map .literal from this _ (Nat.lt_succ_self _)
  induction cs with
  | nil => intro n hn; cases n <;> simp_all [piecesFrom]
  | cons c rest ih =>
    intro n hn
    obtain ⟨n, rfl⟩ : ∃ m, n = m + 1 := ⟨n - 1, by simp at hn; omega⟩
    have hc := h c (by simp)
    have hr := ih (fun d hd => h d (by simp [hd])) n (by simp at hn; omega)
    simp [piecesFrom, hc.1, hc.2, hr]

end RegistryBundle.Template
