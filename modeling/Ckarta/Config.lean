import Ckarta.HttpParser

/-!
The configuration file, c/config/ck_config.[ch], with the class_path handler of
c/core/main.c. Text is a list of bytes. `fgets` hands out the file in lines of at
most `lineSize - 1` bytes; what the code sees of a line is its C string, up to
the first NUL. A failure is what the error buffer holds: `none` where the code
returns -1 and writes no text.
-/
namespace CkartaConfig
open CkartaHttpParser

def lineSize : Nat := 4096
def maxArgs : Nat := 8
def defaultClassPath : Bytes := ascii "build/classes"

def quote : UInt8 := 34
def backslash : UInt8 := 92
def semicolon : UInt8 := 59
def hashMark : UInt8 := 35
def openBrace : UInt8 := 123
def closeBrace : UInt8 := 125

abbrev Failure := Option String

def setError (line : Nat) (message : String) : String :=
  "line " ++ toString line ++ ": " ++ message

structure Config where
  classPath : Bytes
  classPathConfigured : Bool
  deriving DecidableEq, Repr

def configInit : Config := ⟨defaultClassPath, false⟩

/-- `memory` is the answer of the one allocation. -/
def setClassPath (memory : Bool) (config : Config) (value : Bytes) :
    Except String Unit × Config :=
  if value = [] then (.error "class_path requires a non-empty value", config)
  else if config.classPathConfigured then (.error "duplicate class_path directive", config)
  else if memory = false then (.error "out of memory", config)
  else (.ok (), ⟨value, true⟩)

def applyClassPath (memory : Bool) (config : Config) (arguments : List Bytes) (line : Nat) :
    Except Failure Unit × Config :=
  match arguments with
  | [value] =>
    match setClassPath memory config value with
    | (.error message, after) => (.error (some (setError line message)), after)
    | (.ok (), after) => (.ok (), after)
  | _ => (.error (some (setError line "class_path requires one value")), config)

structure Directive where
  name : Bytes
  handler : Option (Config → List Bytes → Nat → Except Failure Unit × Config)

def findDirective (directives : List Directive) (name : Bytes) : Option Directive :=
  directives.find? fun directive => directive.name = name

def directives (memory : Bool) : List Directive :=
  [⟨ascii "class_path", some (applyClassPath memory)⟩]

def isSpace (byte : UInt8) : Bool := (9 ≤ byte && byte ≤ 13) || byte == 32

def skipSpace (cursor : Bytes) : Bytes := cursor.dropWhile isSpace

def endsToken (byte : UInt8) : Bool := isSpace byte || byte == semicolon || byte == hashMark

def unescape (byte : UInt8) : Option UInt8 :=
  if byte = quote ∨ byte = backslash then some byte
  else if byte = 110 then some lf
  else if byte = 116 then some 9
  else none

def parseQuoted (token : Bytes) : Bytes → Except Failure (Bytes × Bytes)
  | [] => .error (some "unterminated quoted string")
  | byte :: rest =>
    if byte = quote then .ok (token, rest)
    else if byte = backslash then
      match rest with
      | [] => .error (some "unterminated escape")
      | escaped :: after =>
        match unescape escaped with
        | none => .error (some "unsupported escape")
        | some value =>
          if lineSize ≤ token.length + 1 then .error (some "token is too long")
          else parseQuoted (token ++ [value]) after
    else if lineSize ≤ token.length + 1 then .error (some "token is too long")
    else parseQuoted (token ++ [byte]) rest

def parsePlain (token : Bytes) : Bytes → Except Failure (Bytes × Bytes)
  | [] => .ok (token, [])
  | byte :: rest =>
    if endsToken byte then .ok (token, byte :: rest)
    else if lineSize ≤ token.length + 1 then .error (some "token is too long")
    else parsePlain (token ++ [byte]) rest

def scanToken (cursor : Bytes) : Except Failure (Bytes × Bytes) :=
  match cursor with
  | [] => parsePlain [] []
  | byte :: rest => if byte = quote then parseQuoted [] rest else parsePlain [] (byte :: rest)

/-- An empty token is an error without a text. -/
def parseToken (cursor : Bytes) : Except Failure (Bytes × Bytes) := do
  let (token, rest) ← scanToken cursor
  if token = [] then .error none else .ok (token, rest)

def parseArguments (arguments : List Bytes) (cursor : Bytes) (room : Nat) :
    Except Failure (List Bytes × Bytes) :=
  match skipSpace cursor with
  | [] => .error (some "missing semicolon")
  | byte :: rest =>
    if byte = hashMark then .error (some "missing semicolon")
    else if byte = semicolon then .ok (arguments, rest)
    else
      match room with
      | 0 => .error (some "too many directive arguments")
      | room + 1 => do
        let (argument, after) ← parseToken (byte :: rest)
        parseArguments (arguments ++ [argument]) after room

def atLineEnd (cursor : Bytes) : Bool :=
  match skipSpace cursor with
  | [] => true
  | byte :: _ => byte == hashMark

/-- One line of the file: `none` for a line that is skipped, else the name of the
directive and its arguments. -/
def parseLine (cursor : Bytes) : Except Failure (Option (Bytes × List Bytes)) :=
  if atLineEnd cursor then .ok none
  else if (skipSpace cursor).head? = some openBrace ∨ (skipSpace cursor).head? = some closeBrace then
    .error (some "blocks are not supported in this configuration version")
  else do
    let (name, afterName) ← parseToken (skipSpace cursor)
    let (arguments, afterArguments) ← parseArguments [] afterName maxArgs
    if atLineEnd afterArguments then .ok (some (name, arguments))
    else .error (some "unexpected characters after semicolon")

/-- The lines `fgets` hands out: each ends after its newline or when the buffer
is full. -/
def fgetsLines (current : Bytes) : Bytes → List Bytes
  | [] => if current = [] then [] else [current]
  | byte :: rest =>
    if byte = lf ∨ current.length + 1 = lineSize - 1 then
      (current ++ [byte]) :: fgetsLines [] rest
    else fgetsLines (current ++ [byte]) rest

def atEnd (line : Bytes) : Bool := !line.contains lf && line.length < lineSize - 1

/-- The file behind the path: one that cannot be opened, for the given reason, or
its content with whether reading ends in an error. -/
inductive ConfigFile where
  | missing (reason : String)
  | opened (content : Bytes) (readError : Bool)

/-- A line that a read error cuts off is not handed out. -/
def readLines (content : Bytes) (readError : Bool) : List Bytes :=
  if readError then (fgetsLines [] content).filter fun line => !atEnd line
  else fgetsLines [] content

def cString (line : Bytes) : Bytes := line.takeWhile (· != 0)

def lineTooLong (line : Bytes) : Bool := !(cString line).contains lf && !atEnd line

def loadLine (directives : List Directive) (config : Config) (number : Nat) (line : Bytes) :
    Except Failure Unit × Config :=
  if lineTooLong line then
    (.error (some (setError number "configuration line is too long")), config)
  else
    match parseLine (cString line) with
    | .error failure => (.error (failure.map (setError number)), config)
    | .ok none => (.ok (), config)
    | .ok (some (name, arguments)) =>
      match (findDirective directives name).bind Directive.handler with
      | none => (.error (some (setError number "unknown or invalid directive")), config)
      | some handler => handler config arguments number

def loadLines (directives : List Directive) (readError : Bool) (config : Config) (number : Nat) :
    List Bytes → Except Failure Unit × Config
  | [] =>
    if readError then (.error (some (setError number "error while reading configuration")), config)
    else (.ok (), config)
  | line :: rest =>
    match loadLine directives config (number + 1) line with
    | (.error failure, after) => (.error failure, after)
    | (.ok (), after) => loadLines directives readError after (number + 1) rest

def loadFile (directives : List Directive) (config : Config) (file : ConfigFile) :
    Except Failure Unit × Config :=
  if directives.isEmpty then (.error none, config)
  else
    match file with
    | .missing reason => (.error (some ("cannot open configuration: " ++ reason)), config)
    | .opened content readError =>
      loadLines directives readError config 0 (readLines content readError)

def dump (config : Config) : Bytes :=
  ascii "class_path \"" ++ config.classPath ++ ascii "\";\n"

example : loadFile (directives true) configInit (.opened (ascii "class_path \"a\\tb\"; # x") false) =
    (.ok (), ⟨ascii "a\tb", true⟩) := by decide +kernel

end CkartaConfig
