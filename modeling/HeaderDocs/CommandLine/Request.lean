import HeaderDocs.CommandLine.Grammar

/-!
What a command line may ask for: the documentation of headers, the flags of the current environment,
or a build of the native library.
-/

namespace HeaderDocs.CommandLine

structure DocsRequest where
  headers : List String := []
  includes : List String := []
  defines : List String := []
  output : String := ""
  title : String := "MuPDF API"
  documentedOnly : Bool := false
deriving DecidableEq, Repr

inductive Request where
  | docs (request : DocsRequest)
  | flags (out : String)
  | build (source out : String)
deriving DecidableEq, Repr

structure Invocation where
  verbose : Bool := false
  request : Request
deriving DecidableEq, Repr

def helpSwitch {α : Type} : Switch α :=
  ⟨["-h", "--help"], .help⟩

def docsGrammar : Grammar DocsRequest where
  switches :=
    [helpSwitch,
      ⟨["-I"], .take fun path request => { request with includes := request.includes ++ [path] }⟩,
      ⟨["-D"], .take fun define request => { request with defines := request.defines ++ [define] }⟩,
      ⟨["-o", "--output"], .take fun path request => { request with output := path }⟩,
      ⟨["--title"], .take fun title request => { request with title := title }⟩,
      ⟨["--documented-only"], .mark fun request => { request with documentedOnly := true }⟩]
  operand := some ⟨.many, fun headers request => .ok { request with headers := headers }⟩

def flagsGrammar : Grammar String where
  switches := [helpSwitch, ⟨["--out"], .take fun out _ => out⟩]

def buildGrammar : Grammar (String × Option String) where
  switches := [helpSwitch, ⟨["--out"], .take fun out request => (request.1, some out)⟩]
  operand := some ⟨.one, fun words request => .ok (words.headD "", request.2)⟩

def readCommand : List String → Except Stop Request
  | "docs" :: words => (docsGrammar.parse {} words).map .docs
  | "flags" :: words => (flagsGrammar.parse "build" words).map .flags
  | "build" :: words => do
      match ← buildGrammar.parse ("", none) words with
      | (source, some out) => return .build source out
      | (_, none) => .error .usage
  | _ => .error .usage

def grammar : Grammar (Bool × Option Request) where
  switches := [helpSwitch, ⟨["-v", "--verbose"], .mark fun invocation => (true, invocation.2)⟩]
  operand :=
    some ⟨.rest, fun words invocation => do return (invocation.1, some (← readCommand words))⟩

def readInvocation (words : List String) : Except Stop Invocation := do
  match ← grammar.parse (false, none) words with
  | (verbose, some request) => return ⟨verbose, request⟩
  | (_, none) => .error .usage

end HeaderDocs.CommandLine
