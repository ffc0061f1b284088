import HeaderDocs.Text.Digit
import HeaderDocs.Text.Find

/-!
Command lines. A word is a switch, an operand or the separator `--`, after which all words are
operands. A switch has short names of one letter and long names that may be shortened as long as one
switch is meant; its value follows in the next word, or in the same one. Short switches without
values may share a word. A grammar has at most one operand, which takes one word, several, or all
words to the end.
-/

namespace HeaderDocs.CommandLine

/-- Why a command line is not carried out: its help was asked for, or it is malformed. -/
inductive Stop where
  | help
  | usage
deriving DecidableEq, Repr

inductive Effect (α : Type) where
  | help
  | mark (set : α → α)
  | take (set : String → α → α)

def Effect.alone {α : Type} : Effect α → α → Except Stop α
  | .help => fun _ => .error .help
  | .mark set => fun value => .ok (set value)
  | .take _ => fun _ => .error .usage

structure Switch (α : Type) where
  names : List String
  effect : Effect α

inductive Extent where
  | one
  | many
  | rest
deriving DecidableEq, Repr

structure Operand (α : Type) where
  extent : Extent
  set : List String → α → Except Stop α

structure Grammar (α : Type) where
  switches : List (Switch α)
  operand : Option (Operand α) := none

/-- What follows the name of a switch in the same word: nothing, a text, or a text after an equals
sign. -/
inductive Attached where
  | nothing
  | direct (text : List Char)
  | equated (text : List Char)

inductive Sense (α : Type) where
  | separator
  | operand
  | unknown
  | switch (effect : Effect α) (attached : Attached)

structure Word (α : Type) where
  text : String
  sense : Sense α

namespace Word

variable {α : Type}

def isSeparator (word : Word α) : Bool :=
  match word.sense with
  | .separator => true
  | _ => false

def isOperand (word : Word α) : Bool :=
  match word.sense with
  | .operand => true
  | _ => false

end Word

def cutAtEquals (text : List Char) : List Char × Option (List Char) :=
  match text.dropWhile (· ≠ '=') with
  | [] => (text, none)
  | _ :: value => (text.takeWhile (· ≠ '='), some value)

def isUnsignedNumber (text : List Char) : Bool :=
  match text.dropWhile Text.isDigit with
  | [] => !text.isEmpty
  | '.' :: fraction => !fraction.isEmpty && fraction.all Text.isDigit
  | _ => false

/-- A number after a minus sign, perhaps before the end of a line. -/
def isNegativeNumber : List Char → Bool
  | '-' :: text => isUnsignedNumber ((Text.dropEnd? ['\n'] text).getD text)
  | _ => false

namespace Grammar

variable {α : Type}

def named? (grammar : Grammar α) (name : List Char) : Option (Effect α) :=
  (grammar.switches.find? fun switch => switch.names.contains (String.ofList name)).map
    Switch.effect

/-- The switches that a shortened long name may mean, each as often as a name of it fits. -/
def completions (grammar : Grammar α) (name : List Char) : List (Effect α) :=
  grammar.switches.flatMap fun switch =>
    (switch.names.filter fun full => Text.startsWith name full.toList).map fun _ => switch.effect

def attachedValue : Option (List Char) → Attached
  | none => .nothing
  | some value => .equated value

/-- A word that starts with a minus sign and is no full name of a switch. What is no switch is an
operand if it reads like a negative number or has a space in it. -/
def readShortened (grammar : Grammar α) (word : List Char) : Except Stop (Sense α) :=
  let (name, value) := cutAtEquals word
  match value, grammar.named? name with
  | some value, some effect => .ok (.switch effect (.equated value))
  | _, _ =>
      let candidates : List (Sense α) :=
        match word with
        | '-' :: '-' :: _ => (grammar.completions name).map fun effect =>
            .switch effect (attachedValue value)
        | dash :: letter :: text =>
            ((grammar.named? [dash, letter]).map fun effect =>
              Sense.switch effect (.direct text)).toList
        | _ => []
      match candidates with
      | [sense] => .ok sense
      | [] => .ok (if isNegativeNumber word || word.contains ' ' then .operand else .unknown)
      | _ => .error .usage

def readWord (grammar : Grammar α) (word : List Char) : Except Stop (Sense α) :=
  match word with
  | '-' :: _ :: _ =>
      match grammar.named? word with
      | some effect => .ok (.switch effect .nothing)
      | none => grammar.readShortened word
  | _ => .ok .operand

def readWords (grammar : Grammar α) : List String → Except Stop (List (Word α))
  | [] => .ok []
  | word :: words =>
      if word = "--" then .ok (⟨word, .separator⟩ :: words.map fun word => ⟨word, .operand⟩)
      else do
        let sense ← grammar.readWord word.toList
        let words ← grammar.readWords words
        return ⟨word, sense⟩ :: words

/-- What the switches in one word come to: what they do, the switch that still wants the next word,
and whether a letter was no switch. -/
structure Cluster (α : Type) where
  effects : List (α → Except Stop α) := []
  pending : Option (String → α → α) := none
  unknown : Bool := false

def Cluster.after (effect : α → Except Stop α) (cluster : Cluster α) : Cluster α :=
  { cluster with effects := effect :: cluster.effects }

def expandAlone (effect : Effect α) : Cluster α :=
  match effect with
  | .take set => { pending := some set }
  | effect => { effects := [effect.alone] }

def expandEquated (effect : Effect α) (text : List Char) : Except Stop (Cluster α) :=
  match effect with
  | .take set => .ok { effects := [fun value => .ok (set (String.ofList text) value)] }
  | _ => .error .usage

def expandDirect (grammar : Grammar α) : Effect α → List Char → Except Stop (Cluster α)
  | .take set, text => .ok { effects := [fun value => .ok (set (String.ofList text) value)] }
  | _, [] => .error .usage
  | effect, letter :: text =>
      if letter = '-' then .error .usage
      else
        match grammar.named? ['-', letter] with
        | none => .ok { effects := [effect.alone], unknown := true }
        | some next =>
            let others : Except Stop (Cluster α) :=
              match text with
              | [] => .ok (expandAlone next)
              | '=' :: value => expandEquated next value
              | _ => expandDirect grammar next text
            others.map (Cluster.after effect.alone)

def expand (grammar : Grammar α) (effect : Effect α) : Attached → Except Stop (Cluster α)
  | .nothing => .ok (expandAlone effect)
  | .direct text => grammar.expandDirect effect text
  | .equated text => expandEquated effect text

/-- The number of words that an operand takes from the start of some words: none, if no operand is
there. -/
def extentIn (extent : Extent) (words : List (Word α)) : Nat :=
  let separators := (words.takeWhile Word.isSeparator).length
  match words.drop separators with
  | [] => 0
  | word :: others =>
      if word.isOperand then
        separators + 1 + match extent with
          | .one => (others.takeWhile Word.isSeparator).length
          | .many => (others.takeWhile fun word => word.isSeparator || word.isOperand).length
          | .rest => others.length
      else 0

/-- The texts of the words of an operand. The separator is none of them, unless all words are
taken. -/
def operandTexts (extent : Extent) (words : List (Word α)) : List String :=
  let texts := words.map Word.text
  match extent with
  | .rest => texts
  | _ => texts.erase "--"

/-- What has been read: a value, the operand that is still wanted, and whether every word made
sense. -/
structure Progress (α : Type) where
  value : α
  operand : Option (Operand α)
  understood : Bool := true

def takeWords (grammar : Grammar α) (progress : Progress α) (words : List (Word α)) :
    Except Stop (Progress α) :=
  match words with
  | [] => .ok progress
  | word :: words =>
      match word.sense with
      | .unknown => grammar.takeWords { progress with understood := false } words
      | .switch effect attached => do
          let cluster ← grammar.expand effect attached
          match cluster.pending, words with
          | none, words =>
              let value ← cluster.effects.foldlM (fun value effect => effect value) progress.value
              let understood := progress.understood && !cluster.unknown
              grammar.takeWords { progress with value := value, understood := understood } words
          | some set, ⟨text, .operand⟩ :: words =>
              let value ← cluster.effects.foldlM (fun value effect => effect value) progress.value
              grammar.takeWords { progress with value := set text value } words
          | some _, _ => .error .usage
      | _ =>
          match progress.operand with
          | none => grammar.takeWords { progress with understood := false } words
          | some operand =>
              match extentIn operand.extent (word :: words) with
              | 0 => grammar.takeWords { progress with understood := false } words
              | more + 1 => do
                  let taken := operandTexts operand.extent (word :: words.take more)
                  let value ← operand.set taken progress.value
                  grammar.takeWords { progress with value := value, operand := none }
                    (words.drop more)
termination_by words.length
decreasing_by all_goals simp_all; try omega

def parse (grammar : Grammar α) (start : α) (words : List String) : Except Stop α := do
  let words ← grammar.readWords words
  let progress ← grammar.takeWords ⟨start, grammar.operand, true⟩ words
  if progress.understood && progress.operand.isNone then return progress.value else .error .usage

end Grammar

end HeaderDocs.CommandLine
