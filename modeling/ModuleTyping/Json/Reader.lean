import ModuleTyping.Json.Lexer

/-!
# Reading JSON

Tokens are put together to a value by a machine with a stack of the arrays and objects
that are still open. It takes one token at a time, so texts may be nested to any depth.
-/

namespace ModuleTyping.Json

/-- Digits without a zero in front of others. -/
def isWhole : List Char → Bool
  | ['0'] => true
  | '0' :: _ => false
  | cs => Decimal.areDigits cs

/-- An exponent without its letter: digits, behind a sign or not. -/
def isExponent : List Char → Bool
  | '+' :: cs => Decimal.areDigits cs
  | '-' :: cs => Decimal.areDigits cs
  | cs => Decimal.areDigits cs

/-- A number without its sign: whole digits, then a fraction and an exponent, each of them
or not. -/
def isUnsigned (cs : List Char) : Bool :=
  let mantissa := cs.takeWhile (!Decimal.isExponentMark ·)
  let exponent := cs.dropWhile (!Decimal.isExponentMark ·)
  let whole := mantissa.takeWhile (· ≠ '.')
  let fraction := mantissa.dropWhile (· ≠ '.')
  isWhole whole && (fraction.isEmpty || Decimal.areDigits fraction.tail) &&
    (exponent.isEmpty || isExponent exponent.tail)

/-- The characters form a number. -/
def isNumber : List Char → Bool
  | '-' :: cs => isUnsigned cs
  | cs => isUnsigned cs

/-- An array or object that is still open, with what it holds so far in reverse. An object
also has the name of the member whose value comes next. -/
inductive Frame where
  | array (elements : List Json)
  | object (members : List (JsonText × Json)) (name : JsonText)

/-- What may come next. -/
inductive Expect where
  /-- A value. -/
  | value
  /-- The first element of an array, or its end. -/
  | elementOrEnd
  /-- The first member of an object, or its end. -/
  | memberOrEnd (members : List (JsonText × Json))
  /-- A member of an object. -/
  | member (members : List (JsonText × Json))
  /-- The colon after the name of a member. -/
  | colon (members : List (JsonText × Json)) (name : JsonText)
  /-- What follows a complete value. -/
  | complete (value : Json)

/-- The value that a token is by itself. -/
def scalar? : Token → Option Json
  | .text value => some (.text value)
  | .number digits => if isNumber digits then some (.number digits) else none
  | .word letters =>
    if letters = ['t', 'r', 'u', 'e'] then some (.bool true)
    else if letters = ['f', 'a', 'l', 's', 'e'] then some (.bool false)
    else if letters = ['n', 'u', 'l', 'l'] then some .null
    else none
  | .mark _ => none

/-- Starts a value. An empty array is an open one to begin with. -/
def startValue (token : Token) (stack : List Frame) : Option (Expect × List Frame) :=
  match token with
  | .mark '[' => some (.elementOrEnd, stack)
  | .mark '\x7b' => some (.memberOrEnd [], stack)
  | token => (scalar? token).map fun value => (.complete value, stack)

/-- Goes on after a complete value inside an array or object. -/
def afterValue (value : Json) (token : Token) : List Frame → Option (Expect × List Frame)
  | .array elements :: stack =>
    match token with
    | .mark ',' => some (.value, .array (value :: elements) :: stack)
    | .mark ']' => some (.complete (.array (value :: elements).reverse), stack)
    | _ => none
  | .object members name :: stack =>
    match token with
    | .mark ',' => some (.member ((name, value) :: members), stack)
    | .mark '\x7d' => some (.complete (.object ((name, value) :: members).reverse), stack)
    | _ => none
  | [] => none

/-- Takes one token. -/
def take (expect : Expect) (stack : List Frame) (token : Token) : Option (Expect × List Frame) :=
  match expect with
  | .value => startValue token stack
  | .elementOrEnd =>
    if token = .mark ']' then some (.complete (.array []), stack)
    else startValue token (.array [] :: stack)
  | .memberOrEnd members =>
    match token with
    | .mark '\x7d' => some (.complete (.object members.reverse), stack)
    | .text name => some (.colon members name, stack)
    | _ => none
  | .member members =>
    match token with
    | .text name => some (.colon members name, stack)
    | _ => none
  | .colon members name =>
    if token = .mark ':' then some (.value, .object members name :: stack) else none
  | .complete value => afterValue value token stack

/-- Puts tokens together, from a state of the machine on. -/
def readFrom (expect : Expect) (stack : List Frame) : List Token → Option Json
  | [] =>
    match expect, stack with
    | .complete value, [] => some value
    | _, _ => none
  | token :: rest =>
    match take expect stack token with
    | none => none
    | some (expect, stack) => readFrom expect stack rest

/-- The value that a text writes, if it writes one and nothing else. -/
def read? (text : List Char) : Option Json :=
  (lex text).bind (readFrom .value [])

end ModuleTyping.Json
