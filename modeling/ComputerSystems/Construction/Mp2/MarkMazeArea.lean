import ComputerSystems.Construction.Mp2.MazeArray

namespace ComputerSystems.Mp2

open Library

/-- The variables of `mark_maze_area`: the maze array and the queue of locations with logs of their
accesses, and the indices of the queue. -/
structure AreaSearch where
  cells : Logged Int UInt8
  q : Logged Nat Int
  qStart : Nat
  qEnd : Nat

namespace AreaSearch

/-- An open space between two locations leads to the second one. -/
def explore (between next : Int) (search : AreaSearch) : AreaSearch :=
  let space := search.cells.load between
  if space.1 &&& mazeWall = 0 then
    let location := space.2.load next
    if location.1 &&& mazeReach = 0 then
      let old := location.2.load next
      { cells := old.2.store next (old.1 ||| mazeReach)
        q := search.q.store search.qEnd next
        qStart := search.qStart
        qEnd := search.qEnd + 1 }
    else { search with cells := location.2 }
  else { search with cells := space.2 }

def exploreAll (xDim : Nat) (cur : Int) (search : AreaSearch) : AreaSearch :=
  let up := search.explore (cur + -2 * xDim) (cur + -4 * xDim)
  let right := up.explore (cur + 1) (cur + 2)
  let down := right.explore (cur + 2 * xDim) (cur + 4 * xDim)
  down.explore (cur + -1) (cur + -2)

/-- The loop ends when the queue is empty. -/
def loop (xDim : Nat) : Nat → AreaSearch → Option AreaSearch
  | 0, _ => none
  | fuel + 1, search =>
      if search.qStart = search.qEnd then some search
      else
        let cur := search.q.load search.qStart
        loop xDim fuel
          ({ search with q := cur.2, qStart := search.qStart + 1 }.exploreAll xDim cur.1)

/-- The queue is filled with arbitrary locations before the search. -/
def start (maze : Maze) (unset : Nat → Int) (x y : Int) : AreaSearch :=
  let q := (Logged.mk unset []).store 0 (maze.place x y)
  let first := q.load 0
  let old := (maze.array []).load first.1
  { cells := old.2.store first.1 (old.1 ||| mazeReach)
    q := first.2
    qStart := 0
    qEnd := 1 }

end AreaSearch

/-- The result is the number of locations that entered the queue. -/
def markMazeAreaIn (fuel : Nat) (maze : Maze) (unset : Nat → Int) (x y : Int) :
    Option (Nat × AreaSearch) :=
  ((AreaSearch.start maze unset x y).loop maze.xDim fuel).map fun search => (search.qEnd, search)

end ComputerSystems.Mp2
