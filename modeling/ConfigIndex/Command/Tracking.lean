import ConfigIndex.Log.Session

/-!
Working through files one by one. On a terminal a large batch shows a progress display, and the
console stays quiet meanwhile; otherwise the start and the end are logged.
-/

namespace ConfigIndex.Command

def displayThreshold : Nat := 100

def showsDisplay (isTerminal isForced : Bool) (total : Nat) : Bool :=
  isTerminal && (isForced || displayThreshold < total)

def trackingEvent (name description : String) (total : Nat) : Event :=
  ⟨.debug, name, [("desc", .text description), ("total", .int total)]⟩

def track (isTerminal isForced : Bool) (description : String) (total : Nat)
    (work : List Action) (isFinished : Bool) : List Action :=
  if showsDisplay isTerminal isForced total then [.quietly work]
  else
    [.log (trackingEvent "files.start" description total)] ++ work ++
      if isFinished then [.log (trackingEvent "files.done" description total)] else []

def counted (count : Int) (noun : String) (plural : Option String) : String :=
  let many := match plural with
    | none | some "" => noun ++ "s"
    | some plural => plural
  toString count ++ " " ++ (if count = 1 then noun else many)

end ConfigIndex.Command
