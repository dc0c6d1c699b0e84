import Dialogue.Json.Token

/-!
# The tree of a text

Every text has a tree: where the text is damaged the tree has a leaf or an ending that says so,
and the text after it does not count. The tree is built token by token with the open containers on
a stack, so nesting has no limit here.
-/
namespace Dialogue.Json

inductive ListEnd where
  | closed
  | endOfText
  | noComma
  | trailingComma
  | commaAtEnd
  | damagedItem
  deriving DecidableEq, Repr

inductive ObjectEnd where
  | closed
  | endOfText
  | noComma
  | trailingComma
  | commaAtEnd
  | notKey
  | brokenKey (key : Quoted)
  | noColon (key : Quoted) (atEnd : Bool)
  | damagedMember
  deriving DecidableEq, Repr

inductive Node where
  | absent
  | stray
  | brokenWord (atEnd : Bool)
  | brokenNumber (atEnd : Bool)
  | null
  | bool (b : Bool)
  | number (n : Numeral)
  | text (q : Quoted)
  | list (items : List Node) (ending : ListEnd)
  | object (members : List (Quoted × Node)) (ending : ObjectEnd)
  deriving Repr, Inhabited

/-- An open container with what it holds so far, the newest first; in an object a key waits for its
value. -/
inductive Frame where
  | list (before : List Node)
  | object (before : List (Quoted × Node)) (key : Quoted)

/-- A text read completely, and whether anything but white space comes after its value. -/
structure Document where
  root : Node
  trailing : Bool
  deriving Repr

/-- What has been read of a text: the open containers and what is to come next. -/
inductive Progress where
  | value (frames : List Frame)
  | listStart (frames : List Frame)
  | listComma (before : List Node) (frames : List Frame)
  | objectStart (frames : List Frame)
  | objectComma (before : List (Quoted × Node)) (frames : List Frame)
  | colon (before : List (Quoted × Node)) (key : Quoted) (frames : List Frame)
  | after (node : Node) (frames : List Frame)
  | finished (document : Document)

namespace Frame

def add (node : Node) (ending : ListEnd × ObjectEnd) : Frame → Node
  | .list before => .list (node :: before).reverse ending.1
  | .object before key => .object ((key, node) :: before).reverse ending.2

end Frame

/-- Damage inside open containers ends all of them. -/
def damaged (node : Node) (frames : List Frame) : Document :=
  ⟨frames.foldl (fun n f => f.add n (.damagedItem, .damagedMember)) node, false⟩

namespace Progress

def stop (node : Node) (frames : List Frame) : Progress := .finished (damaged node frames)

/-- The token that starts a value. -/
def begin (frames : List Frame) : Token → Progress
  | .null => .after .null frames
  | .bool b => .after (.bool b) frames
  | .number n => .after (.number n) frames
  | .text q => if q.ending = .closed then .after (.text q) frames else stop (.text q) frames
  | .listOpen => .listStart frames
  | .objectOpen => .objectStart frames
  | .brokenWord atEnd => stop (.brokenWord atEnd) frames
  | .brokenNumber atEnd => stop (.brokenNumber atEnd) frames
  | _ => stop .stray frames

def key (before : List (Quoted × Node)) (q : Quoted) (frames : List Frame) : Progress :=
  if q.ending = .closed then .colon before q frames
  else stop (.object before.reverse (.brokenKey q)) frames

def step : Progress → Token → Progress
  | .value fs, t => begin fs t
  | .listStart fs, .listClose => .after (.list [] .closed) fs
  | .listStart fs, t => begin (.list [] :: fs) t
  | .listComma before fs, .listClose => stop (.list before.reverse .trailingComma) fs
  | .listComma before fs, t => begin (.list before :: fs) t
  | .objectStart fs, .objectClose => .after (.object [] .closed) fs
  | .objectStart fs, .text q => key [] q fs
  | .objectStart fs, _ => stop (.object [] .notKey) fs
  | .objectComma before fs, .objectClose => stop (.object before.reverse .trailingComma) fs
  | .objectComma before fs, .text q => key before q fs
  | .objectComma before fs, _ => stop (.object before.reverse .notKey) fs
  | .colon before q fs, .colon => .value (.object before q :: fs)
  | .colon before q fs, _ => stop (.object before.reverse (.noColon q false)) fs
  | .after n (.list before :: fs), .comma => .listComma (n :: before) fs
  | .after n (.list before :: fs), .listClose =>
    .after ((Frame.list before).add n (.closed, .closed)) fs
  | .after n (.object before q :: fs), .comma => .objectComma ((q, n) :: before) fs
  | .after n (.object before q :: fs), .objectClose =>
    .after ((Frame.object before q).add n (.closed, .closed)) fs
  | .after n (f :: fs), _ => stop (f.add n (.noComma, .noComma)) fs
  | .after n [], _ => .finished ⟨n, true⟩
  | .finished d, _ => .finished d

def finish : Progress → Document
  | .after n [] => ⟨n, false⟩
  | .finished d => d
  | .value fs => damaged .absent fs
  | .listStart fs => damaged (.list [] .endOfText) fs
  | .listComma before fs => damaged (.list before.reverse .commaAtEnd) fs
  | .objectStart fs => damaged (.object [] .endOfText) fs
  | .objectComma before fs => damaged (.object before.reverse .commaAtEnd) fs
  | .colon before q fs => damaged (.object before.reverse (.noColon q true)) fs
  | .after n (f :: fs) => damaged (f.add n (.endOfText, .endOfText)) fs

def run (s : Progress) (ts : List Token) : Progress := ts.foldl step s

theorem run_append (s : Progress) (xs ys : List Token) : s.run (xs ++ ys) = (s.run xs).run ys :=
  List.foldl_append

@[simp] theorem run_nil (s : Progress) : s.run [] = s := rfl

@[simp] theorem run_cons (s : Progress) (t : Token) (ts : List Token) :
    s.run (t :: ts) = (s.step t).run ts := rfl

@[simp] theorem run_finished (d : Document) (ts : List Token) :
    (Progress.finished d).run ts = .finished d := by
  induction ts with
  | nil => rfl
  | cons t ts ih => exact ih

end Progress

def document (cs : List Char) : Document := ((Progress.value []).run (tokens cs)).finish

end Dialogue.Json
