import ConventionLint.Command.Transcript

/-! The program: reads the files of a project, and prints what a command says about them. -/
namespace ConventionLint

/-- The components of what a place leads to in the end. -/
def realParts (place : String) : IO (List String) := do
  return (Path.parse (← IO.FS.realPath place).toString).parts

/-- Puts a file on a volume, locked if it cannot be read. -/
def Volume.loadFile (d : Volume) (parts : List String) : IO Volume := do
  try
    let bytes ← IO.FS.readBinFile (Path.toString ⟨.root, parts⟩)
    return d.write parts (.file bytes.toList)
  catch _ => return { d.write parts (.file []) with locked := parts :: d.locked }

/-- Puts a file, or a directory without what is in it, on a volume, and the link that leads to it.
What is not there is left out. -/
def Volume.loadEntry (d : Volume) (p : Path) : IO Volume := do
  try
    let parts ← realParts p.toString
    let own := (← realParts ({ p with parts := p.parts.dropLast } : Path).toString) ++ [p.name]
    let d := if p.parts.isEmpty || p.name = ".." || own = parts then d
      else { d with links := (own, parts) :: d.links.filter (·.1 ≠ own) }
    if (d.get? parts).isSome then return d
    else if ← (← IO.FS.realPath p.toString).isDir then return d.write parts .directory
    else d.loadFile parts
  catch _ => return d

/-- Puts what a path leads to on a volume, with all links on the way. -/
def Volume.loadPath (d : Volume) (p : Path) : IO Volume :=
  ((List.range (p.parts.length + 1)).map fun n => { p with parts := p.parts.take n }).foldlM
    loadEntry d

/-- Puts a directory with all below it on a volume, but for the packages of others. -/
partial def Volume.loadTree (d : Volume) (directory : Path) : IO Volume := do
  let mut d := d
  try
    let here ← realParts directory.toString
    for entry in ← (← IO.FS.realPath directory.toString).readDir do
      if entry.fileName ≠ "node_modules" then
        let p : Path := ⟨.root, here ++ [entry.fileName]⟩
        let known := (d.get? (d.resolve p)).isSome
        d ← d.loadEntry p
        if !known && (d.get? (d.resolve p)).any Entry.isDirectory then
          d ← d.loadTree (d.absolute p)
    return d
  catch _ => return d

def secondsNow : IO Data.Number := do
  return .float (Float.ofNat (← IO.monoMsNow) / 1000.0)

def Command.Transcript.print (t : Transcript) (v : Verbosity) : IO Unit := do
  for line in t.lines do
    match line with
    | .out text => IO.println text
    | .error text => IO.eprintln text
    | .log r => if let some text := v.shown? r then IO.eprintln text
  if let some b := t.broken then IO.eprintln b.message

end ConventionLint

open ConventionLint

/-- Words of the command line may name files outside of the project. The time that is reported is
that of reading the files. -/
def main (words : List String) : IO UInt32 := do
  let start ← secondsNow
  let mut d : Volume := { workingDirectory := Path.parse (← IO.currentDir).toString }
  for word in "." :: words do
    d ← d.loadPath (Path.parse word)
  if let some place := Command.projectOf? words then
    d ← d.loadTree (Path.parse place)
  let terminal ← (← IO.getStdout).isTty
  let (t, v) := Command.transcript .builtin d terminal start (← secondsNow) words
  t.print v
  return UInt32.ofNat t.code
