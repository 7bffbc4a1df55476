import DomainRules.Regex.Basic
import DomainRules.Text.Blank
import DomainRules.Text.Identifier
import DomainRules.Text.Units
/-!
Matching: where a regular expression matches in a text of UTF-16 code units, and what its groups
capture there. A mode says whether the case of letters counts and where lines end. The leftmost
match counts, and among those that begin there the first in the order of the branches and of the
repetitions.
-/
namespace DomainRules

open Text

def isWordUnit (u : UInt16) : Bool :=
  isAsciiLetter u.toNat || isAsciiDigit u.toNat || sign u == '_'

def isLineEnd (u : UInt16) : Bool := u == 0x0A || u == 0x0D || u == 0x2028 || u == 0x2029

def EscapeClass.contains : EscapeClass → UInt16 → Bool
  | .digit, u => isAsciiDigit u.toNat
  | .space, u => isBlank (charOfUnit u)
  | .word, u => isWordUnit u

def ClassMember.contains : ClassMember → UInt16 → Bool
  | .unit v, u => u == v
  | .range first last, u => first ≤ u && u ≤ last
  | .escape kind negated, u => kind.contains u != negated

/-- How an expression is read. A group may switch the mode for its own part. -/
structure Mode where
  ignoresCase : Bool := false
  /-- The two anchors also hold at the ends of lines. -/
  isMultiline : Bool := false
  /-- The dot also means line ends. -/
  dotMeansAll : Bool := false
  deriving DecidableEq, Repr

namespace Mode

def switch (mode : Mode) (on off : List Char) : Mode where
  ignoresCase := (mode.ignoresCase || on.contains 'i') && !off.contains 'i'
  isMultiline := (mode.isMultiline || on.contains 'm') && !off.contains 'm'
  dotMeansAll := (mode.dotMeansAll || on.contains 's') && !off.contains 's'

def areSame (mode : Mode) (u v : UInt16) : Bool :=
  if mode.ignoresCase then capital u == capital v else u == v

def sameAs (mode : Mode) (u : UInt16) : List UInt16 := if mode.ignoresCase then casesOf u else [u]

/-- Whether a place is at the beginning of the subject, or of a line where that counts. -/
def isStart (mode : Mode) (subject : Array UInt16) (place : Nat) : Bool :=
  place == 0 || (mode.isMultiline && (subject[place - 1]?.map isLineEnd).getD false)

def isFinish (mode : Mode) (subject : Array UInt16) (place : Nat) : Bool :=
  place == subject.size || (mode.isMultiline && (subject[place]?.map isLineEnd).getD false)

end Mode

def Repetition.bounds : Repetition → Nat × Option Nat
  | .star => (0, none)
  | .plus => (1, none)
  | .optional => (0, some 1)
  | .counted least most => (least, most)

def GroupRef.index (groups : List (Option GroupName)) : GroupRef → Nat
  | .number n => n - 1
  | .name own => groups.idxOf (some own)

/-- A place in a text together with what the groups have captured on the way there: for each group
the two places around it. -/
structure Cursor where
  place : Nat
  spans : List (Option (Nat × Nat))
  deriving DecidableEq, Repr

namespace Cursor

def capture (cursor : Cursor) (index first last : Nat) : Cursor :=
  { cursor with spans := cursor.spans.set index (some (min first last, max first last)) }

/-- The cursor with `count` groups emptied from an index on. -/
def release (cursor : Cursor) (index count : Nat) : Cursor :=
  { cursor with
    spans := cursor.spans.mapIdx fun i span =>
      if index ≤ i && i < index + count then none else span }

end Cursor

/-- A way on from a cursor. Of the cursors that it can lead to, in its order, the first that
satisfies what comes afterwards decides. -/
abbrev Path := Cursor → (Cursor → Option Cursor) → Option Cursor

namespace Path

def blocked : Path := fun _ _ => none

def stay : Path := fun cursor next => next cursor

def andThen (first second : Path) : Path := fun cursor next =>
  first cursor fun reached => second reached next

def orElse (first second : Path) : Path := fun cursor next =>
  match first cursor next with
  | some final => some final
  | none => second cursor next

def check (holds : Cursor → Bool) : Path := fun cursor next =>
  if holds cursor then next cursor else none

/-- One unit that a set holds, forward or backward. -/
def step (subject : Array UInt16) (isBackward : Bool) (holds : UInt16 → Bool) : Path :=
  fun cursor next =>
    if isBackward && cursor.place = 0 then none
    else
      let index := if isBackward then cursor.place - 1 else cursor.place
      match subject[index]? with
      | some u =>
        if holds u then next { cursor with place := if isBackward then index else index + 1 }
        else none
      | none => none

/-- What lies between two places once more, forward or backward. -/
def again (subject : Array UInt16) (mode : Mode) (isBackward : Bool) (first last : Nat) : Path :=
  let passages := (subject.extract first last).toList.map fun v =>
    step subject isBackward fun u => mode.areSame u v
  (if isBackward then passages.reverse else passages).foldr andThen stay

/-- A way once more, and then the rest. What the way captured before is released, and where the
least number is reached it has to move the cursor. -/
def round (way : Path) (release : Cursor → Cursor) (least : Nat) (rest : Path) : Path :=
  fun cursor next =>
    way (release cursor) fun reached =>
      if least = 0 && reached.place = cursor.place then none else rest reached next

/-- A way over and over. Each round takes one from the least number or moves the cursor, so both
sizes together are fuel enough. -/
def loop (way : Path) (release : Cursor → Cursor) (isLazy : Bool) : Nat → Nat → Option Nat → Path
  | 0, _, _ => blocked
  | fuel + 1, least, most =>
    if most = some 0 then stay
    else
      let onward :=
        way.round release least (loop way release isLazy fuel (least - 1) (most.map (· - 1)))
      if least ≠ 0 then onward
      else if isLazy then stay.orElse onward
      else onward.orElse stay

end Path

namespace Regex

/-- The capturing groups in order of their opening, with their names. -/
def captures : Regex → List (Option GroupName)
  | look _ _ body => body.captures
  | group (.capture name) body => name :: body.captures
  | group _ body => body.captures
  | repeated body _ _ => body.captures
  | concat first rest => first.captures ++ rest.captures
  | either left right => left.captures ++ right.captures
  | _ => []

def isWordEdge (subject : Array UInt16) (place : Nat) : Bool :=
  let isWordAt (i : Nat) := (subject[i]?.map isWordUnit).getD false
  (place != 0 && isWordAt (place - 1)) != isWordAt place

/-- The ways that an expression allows through a subject, forward or backward, where `groups` are
the groups of the whole expression and `index` is the number of those that open before this part. -/
def path (subject : Array UInt16) (groups : List (Option GroupName)) :
    Regex → Mode → Nat → Bool → Path
  | empty, _, _, _ => .stay
  | unit v, mode, _, isBackward => .step subject isBackward fun u => mode.areSame u v
  | any, mode, _, isBackward =>
    .step subject isBackward fun u => mode.dotMeansAll || !isLineEnd u
  | escape kind negated, mode, _, isBackward =>
    .step subject isBackward fun u => (mode.sameAs u).any fun v => kind.contains v != negated
  | oneOf negated members, mode, _, isBackward =>
    .step subject isBackward fun u =>
      ((mode.sameAs u).any fun v => members.any (·.contains v)) != negated
  | start, mode, _, _ => .check fun cursor => mode.isStart subject cursor.place
  | finish, mode, _, _ => .check fun cursor => mode.isFinish subject cursor.place
  | wordEdge negated, _, _, _ => .check fun cursor => isWordEdge subject cursor.place != negated
  | look behind negated body, mode, index, _ => fun cursor next =>
    match path subject groups body mode index behind cursor some with
    | some reached => if negated then none else next { reached with place := cursor.place }
    | none => if negated then next cursor else none
  | backreference target, mode, _, isBackward => fun cursor next =>
    match cursor.spans[target.index groups]? with
    | some (some (first, last)) => Path.again subject mode isBackward first last cursor next
    | _ => next cursor
  | group (.capture _) body, mode, index, isBackward => fun cursor next =>
    path subject groups body mode (index + 1) isBackward cursor fun reached =>
      next (reached.capture index cursor.place reached.place)
  | group .plain body, mode, index, isBackward => path subject groups body mode index isBackward
  | group (.modified on off) body, mode, index, isBackward =>
    path subject groups body (mode.switch on off) index isBackward
  | repeated body times isLazy, mode, index, isBackward =>
    let (least, most) := times.bounds
    Path.loop (path subject groups body mode index isBackward)
      (fun cursor => cursor.release index body.captures.length)
      isLazy (least + subject.size + 1) least most
  | concat first rest, mode, index, isBackward =>
    let before := path subject groups first mode index isBackward
    let after := path subject groups rest mode (index + first.captures.length) isBackward
    if isBackward then after.andThen before else before.andThen after
  | either left right, mode, index, isBackward =>
    (path subject groups left mode index isBackward).orElse
      (path subject groups right mode (index + left.captures.length) isBackward)

/-- The way of a whole expression from a place on, where no group has captured anything yet. -/
def pathFrom (r : Regex) (subject : Array UInt16) (mode : Mode) (place : Nat)
    (next : Cursor → Option Cursor) : Option Cursor :=
  r.path subject r.captures mode 0 false { place, spans := r.captures.map fun _ => none } next

/-- What the groups capture in the leftmost match that ignores case, if there is one; a group that
takes no part captures nothing. -/
def search? (r : Regex) (s : List UInt16) : Option (List (Option (List UInt16))) :=
  let subject := s.toArray
  let final? := (List.range (subject.size + 1)).findSome? fun place =>
    r.pathFrom subject { ignoresCase := true } place some
  final?.map fun final => final.spans.map fun span? =>
    span?.map fun (first, last) => (subject.extract first last).toList

/-- Whether an expression without flags matches a subject from its beginning to its end. -/
def matchesAll (r : Regex) (s : List UInt16) : Bool :=
  let isAtEnd (cursor : Cursor) := if cursor.place = s.length then some cursor else none
  (r.pathFrom s.toArray {} 0 isAtEnd).isSome

end Regex

end DomainRules
