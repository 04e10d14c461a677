import Calculator.Failure
import Calculator.Storage.Path
import Calculator.Text.Point

/-!
# Looking up names

A path is resolved name by name, each looked up behind the names passed so far. A name with a zero
byte cannot be looked up, nor can one with half of a pair of code units, unless the half stands for
a byte that is no UTF-8. `Path.obstacle?` is the first such failure on the way along a text.
-/

namespace Calculator

/-- Whether a point has bytes in a name. Some halves stand for single bytes. -/
def Text.Point.hasBytes : Text.Point → Bool
  | .char _ => true
  | .half n => 0xDC80 ≤ n && n ≤ 0xDCFF

namespace Path

open Text

/-- The points between slashes. -/
def splitPoints : List Point → List (List Point)
  | [] => [[]]
  | p :: ps =>
    if p = .char '/' then [] :: splitPoints ps
    else match splitPoints ps with
      | [] => [[p]]
      | name :: rest => (p :: name) :: rest

/-- The name that leads up. -/
def upward : List Point := points "..".toList

/-- The names passed behind one more. At the front of a path that is not from the root,
steps up are kept. -/
def passName (fromRoot : Bool) (passed : List (List Point)) (name : List Point) :
    List (List Point) :=
  if name ≠ upward then passed ++ [name]
  else match passed.getLast? with
    | none => if fromRoot then [] else [upward]
    | some last => if last = upward then passed ++ [upward] else passed.dropLast

/-- The number of points before a name that is looked up behind others. -/
def pointsBefore (fromRoot : Bool) (passed : List (List Point)) : Nat :=
  passed.foldl (fun n name => n + name.length + 1) (if fromRoot then 1 else 0)

/-- Why a name behind some points cannot be looked up. -/
def nameObstacle? (before : Nat) (name : List Point) : Option Failure :=
  match name.dropWhile Point.hasBytes with
  | [] => if .char '\x00' ∈ name then some .zeroByte else none
  | p :: rest =>
    let first := before + (name.takeWhile Point.hasBytes).length
    let others := rest.takeWhile fun q => q.char?.isNone
    some (.notEncodable p.code first (first + others.length))

/-- Why names cannot be looked up one after the other. -/
def namesObstacle? (fromRoot : Bool) (passed : List (List Point)) :
    List (List Point) → Option Failure
  | [] => none
  | name :: rest =>
    if name = upward then namesObstacle? fromRoot (passName fromRoot passed name) rest
    else nameObstacle? (pointsBefore fromRoot passed) name <|>
      namesObstacle? fromRoot (passName fromRoot passed name) rest

/-- Why a path that is given as points cannot be resolved, seen from another path. -/
def obstacle? (p : Path) (s : List Point) : Option Failure :=
  let names := (splitPoints s).filter fun name => name ≠ [] && name ≠ points ".".toList
  let q := p.join (ofText (mendedText s))
  let before := q.names.take (q.names.length - names.length)
  namesObstacle? (q.root ≠ "") [] (before.map (fun name => points name.toList) ++ names)

end Path

end Calculator
