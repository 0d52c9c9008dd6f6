import HostBridge.Binding.Builder
import HostBridge.Host.Types

/-!
# Members of property bags

Members of bag classes described by data: what a reader reads, what a writer stores, what a method
does. `BagMember.addition` is the member itself, written for a given bag class.
-/

namespace HostBridge

/-- What a reader gives. -/
inductive BagRead where
  /-- A property, or undefined. -/
  | prop (key : String)
  | const (v : Value)
  /-- All properties as an object. -/
  | all

/-- What a writer does with a value. -/
inductive BagWrite where
  | prop (key : String)
  | double (key : String)
  | int64 (key : String)
  | text (key : String)
  | fail (reason : String)
  | ignore

/-- What a method does. -/
inductive BagBody where
  | const (v : Value)
  | prop (key : String)
  /-- Answer the arguments. -/
  | echo
  /-- Add numbers to a property. -/
  | sum (key : String)
  /-- Add integers to a property, wrapping around. -/
  | addInt (key : String)
  /-- Join texts. -/
  | concat
  /-- Store the first argument. -/
  | store (key : String)
  /-- Answer the third argument, an integer. -/
  | third
  | fail (reason : String)
  /-- Set a property to true, then fail. -/
  | markFail (key : String)

/-- What a generic reader answers. -/
inductive BagLookup where
  /-- The property of that key. -/
  | prop
  /-- The property named by what follows the given start of the key. -/
  | after (start : String)
  /-- The key itself. -/
  | keyText
  | nothing

/-- What a generic writer does. -/
inductive BagStore where
  | prop
  /-- Store under what follows the given start of the key. -/
  | after (start : String)
  | refuse
  /-- Note the key in a property, and refuse. -/
  | noteRefuse (key : String)

/-- What a constructor makes. -/
inductive BagMake where
  /-- Properties of the given names, with the arguments. -/
  | args (names : List String)
  | doubles (names : List String)
  | texts (names : List String)
  /-- One property with all arguments. -/
  | rest (key : String)
  | fail (reason : String)

/-- The properties of a bag. -/
abbrev Props := Record Value

/-- What reading gives. -/
def BagRead.run : BagRead → Props → Value
  | prop key, props => (Record.get? props key).getD .undefined
  | const v, _ => v
  | all, props => .object props

/-- What writing does. A value that is not of the wanted kind is refused and nothing is stored. -/
def BagWrite.run (w : BagWrite) (props : Props) (v : Value) : Except InvokeError Unit × Props :=
  let store (key : String) (r : Except InvokeError Value) : Except InvokeError Unit × Props :=
    match r with
    | .ok v => (.ok (), Record.put props key v)
    | .error e => (.error e, props)
  match w with
  | prop key => store key (.ok v)
  | double key => store key ((Args.double [v] 0).map .float)
  | int64 key => store key ((Args.int64 [v] 0).map .int)
  | text key => store key ((Args.text [v] 0).map .text)
  | fail reason => (.error (.host reason), props)
  | ignore => (.ok (), props)

/-- Read every argument from index `i` on through a reader, and combine them from the left. -/
def foldArgs {α : Type} (read : List Value → Nat → Except InvokeError α) (combine : α → α → α)
    (args : List Value) : Nat → Nat → α → Except InvokeError α
  | 0, _, acc => .ok acc
  | n + 1, i, acc =>
    match read args i with
    | .error e => .error e
    | .ok a => foldArgs read combine args n (i + 1) (combine acc a)

/-- What a method answers and leaves. -/
def BagBody.run (b : BagBody) (props : Props) (args : List Value) :
    Except InvokeError Value × Props :=
  let keep (key : String) (r : Except InvokeError Value) : Except InvokeError Value × Props :=
    match r with
    | .ok v => (.ok v, Record.put props key v)
    | .error e => (.error e, props)
  match b with
  | const v => (.ok v, props)
  | prop key => (.ok ((Record.get? props key).getD .undefined), props)
  | echo => (.ok (.array args), props)
  | sum key =>
    let start := ((Record.get? props key).bind Value.toDouble?).getD .zero
    keep key ((foldArgs Args.double Double.add args args.length 0 start).map .float)
  | addInt key =>
    let start := ((Record.get? props key).bind Value.toInt64?).getD 0
    keep key ((foldArgs Args.int64 (· + ·) args args.length 0 start).map .int)
  | concat => ((foldArgs Args.text (· ++ ·) args args.length 0 "").map .text, props)
  | store key =>
    match Args.get args 0 "value" with
    | .ok v => (.ok .undefined, Record.put props key v)
    | .error e => (.error e, props)
  | third => ((Args.int64 args 2).map .int, props)
  | fail reason => (.error (.host reason), props)
  | markFail key =>
    (.error (.host ("failed after marking " ++ key)), Record.put props key (.bool true))

/-- What remains of a key after its start. -/
def keyAfter? (start key : String) : Option String :=
  if start.toList.isPrefixOf key.toList then
    some (String.ofList (key.toList.drop start.toList.length))
  else none

/-- What a generic reader answers for a key. -/
def BagLookup.run : BagLookup → Props → String → Option Value
  | prop, props, key => Record.get? props key
  | after start, props, key => (keyAfter? start key).bind (Record.get? props)
  | keyText, _, key => some (.text key)
  | nothing, _, _ => none

/-- Whether a generic writer takes a value, and what it leaves. -/
def BagStore.run : BagStore → Props → String → Value → Bool × Props
  | prop, props, key, v => (true, Record.put props key v)
  | after start, props, key, v =>
    match keyAfter? start key with
    | some rest => (true, Record.put props rest v)
    | none => (false, props)
  | refuse, props, _, _ => (false, props)
  | noteRefuse note, props, key, _ => (false, Record.put props note (.text key))

/-- Name the arguments from index `i` on, each read through a reader. -/
def nameArgs {α : Type} (read : List Value → Nat → Except InvokeError α) (wrap : α → Value)
    (args : List Value) : List String → Nat → Props → Except InvokeError Props
  | [], _, acc => .ok acc
  | name :: names, i, acc =>
    match read args i with
    | .error e => .error e
    | .ok a => nameArgs read wrap args names (i + 1) (Record.put acc name (wrap a))

/-- The properties of a new bag. -/
def BagMake.run : BagMake → List Value → Except InvokeError Props
  | args names, values => .ok (Record.ofList (names.zip values))
  | doubles names, values => nameArgs Args.double .float values names 0 []
  | texts names, values => nameArgs Args.text .text values names 0 []
  | rest key, values => .ok [(key, .array values)]
  | fail reason, _ => .error (.host reason)

/-- A described member of a bag class. -/
inductive BagMember where
  | field (name : String) (read : BagRead) (write : Option BagWrite)
  | getter (name : String) (read : BagRead)
  | getterCode (name : String) (arity : Arity) (body : BagBody)
  | setter (name : String) (write : BagWrite)
  | setterCode (name : String) (arity : Arity) (body : BagBody)
  | method (name : String) (arity : Arity) (body : BagBody)
  | applyFunction (name : String) (arity : Arity) (body : BagBody)
  | genericGetter (name : String) (body : BagLookup)
  | genericSetter (name : String) (body : BagStore)
  | factory (arity : Arity) (body : BagMake)

namespace BagMember

/-- An overload with a described body. -/
def overload (owner : ClassInfo) (name : String) (arity : Arity) (exposure : Exposure)
    (body : BagBody) : Method HostType :=
  { name, arity, exposure, owner := .bag owner, body := fun props args => body.run props args }

/-- The member of a bag class, with its mark. -/
def addition (m : BagMember) (owner : ClassInfo) (exposure : Exposure) : Addition HostType :=
  match m with
  | field name read write =>
    .field { name, exposure, owner := .bag owner, read := fun props => read.run props,
             write := write.map fun w props v => w.run props v }
  | getter name read =>
    .getter { Method.getter name (HostType.bag owner) (fun props => read.run props) with exposure }
  | getterCode name arity body => .getter (overload owner name arity exposure body)
  | setter name write =>
    .setter { Method.setter name (HostType.bag owner) (fun props v => write.run props v)
              with exposure }
  | setterCode name arity body => .setter (overload owner name arity exposure body)
  | method name arity body => .method (overload owner name arity exposure body)
  | applyFunction name arity body => .applyFunction (overload owner name arity exposure body)
  | genericGetter name body =>
    .genericGetter
      { name, exposure, owner := .bag owner, read := fun props key => body.run props key }
  | genericSetter name body =>
    .genericSetter { name, exposure, owner := .bag owner,
                     write := fun props key v => body.run props key v }
  | factory arity body =>
    .factory { arity, exposure, owner := .bag owner, make := fun args => body.run args }

end BagMember

end HostBridge
