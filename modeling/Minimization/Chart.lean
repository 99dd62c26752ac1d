import Minimization.Constrained.Snapshot
import Minimization.Value.Access

/-!
# Charts

A chart is drawn by calls on a canvas, on the figure and on its panels, and saved to a file, whose
directory is made first. A `Drawing` is what was done of all that, in order.

Neither the calls nor the file system are part of the program. A `Surface` stands for both: whatever is
to be done can be refused there, by a failure that ends the drawing, and what was done until then stays.
Nothing that is done gives anything back, so what comes next does not depend on it.

`lossCurve` shows the losses of a descent, `paths` the positions of descents in the plane, and
`rounds` how a constrained run went on.
-/

namespace Minimization.Chart

/-- What a call is made on. -/
inductive Target where
  | canvas
  | figure
  | panel (i : Nat)
  deriving DecidableEq, Repr

/-- What a call is made with. -/
inductive Ink where
  | value (v : Value)
  | pair (a b : Value)
  | places (is : List Nat)
  | numbers (xs : List Float)
  | picture
  | figure

/-- A call: what it is made on, what it does, and with what. -/
structure Stroke where
  target : Target
  action : String
  arguments : List Ink
  options : Fields Ink

/-- What is done for a picture: the path of its file is found out, the directory of the file is made, or a
call. -/
inductive Action where
  | locate
  | makeDirectory
  | call (s : Stroke)

/-- What was done, in order. -/
structure Drawing where
  actions : List Action

namespace Drawing

/-- A canvas on which nothing was done yet. -/
def empty : Drawing := ⟨[]⟩

/-- The calls that were made. -/
def strokes (d : Drawing) : List Stroke :=
  d.actions.filterMap fun
    | .call s => some s
    | _ => none

/-- Whether the directory of the picture was made. -/
def directory (d : Drawing) : Bool :=
  d.actions.any fun
    | .makeDirectory => true
    | _ => false

end Drawing

/-- What pictures are drawn with and where their files are: an action goes through, or is refused with a
failure, given what was done before. -/
structure Surface where
  answer : List Action → Action → Except Failure Unit

/-- A surface that refuses nothing. -/
def Surface.willing : Surface := ⟨fun _ _ => .ok ()⟩

/-- Drawing on a surface can fail; what was done until then stays. -/
abbrev Draw := ReaderT Surface (ExceptT Failure (StateM Drawing))

/-- A text as ink. -/
def Ink.text (s : String) : Ink := .value (.text s)

namespace Draw

/-- Does something, unless the surface refuses it. -/
def act (a : Action) : Draw Unit := fun surface => do
  let d ← get
  (surface.answer d.actions a : Except Failure Unit)
  set (⟨d.actions ++ [a]⟩ : Drawing)

/-- Makes a call. -/
def stroke (target : Target) (action : String) (arguments : List Ink) (options : Fields Ink) :
    Draw Unit :=
  act (.call ⟨target, action, arguments, options⟩)

/-- Makes a call on the canvas. -/
def canvas (action : String) (arguments : List Ink) : Draw Unit := stroke .canvas action arguments []

/-- Opens a figure of a size. -/
def openFigure (width height : Value) : Draw Unit :=
  stroke .canvas "figure" [] [("figsize", .pair width height)]

/-- Closes the figure. -/
def close : Draw Unit := canvas "close" []

/-- Finds out the path of the picture. -/
def locate : Draw Unit := act .locate

/-- Makes the directory of the picture. -/
def makeDirectory : Draw Unit := act .makeDirectory

/-- Writes a title, if there is one. -/
def title (target : Target) (action : String) (v : Value) : Draw Unit :=
  if v.isPresent then stroke target action [.value v] [] else pure ()

/-- Saves the picture and closes the figure. -/
def finish : Draw Unit := do
  canvas "tight_layout" []
  canvas "savefig" [.picture]
  close

/-- How a drawing on a surface ends, and what was done then. -/
def on (d : Draw Unit) (surface : Surface) : Except Failure Unit × Drawing :=
  (d.run surface).run.run Drawing.empty

/-- What a drawing leaves on an empty canvas, if nothing is refused. -/
def onEmpty (d : Draw Unit) : Except Failure Unit × Drawing := d.on Surface.willing

end Draw

/-- The finite numbers with their places, counted from zero. -/
def finitePoints (xs : List Float) : List (Float × Nat) :=
  xs.zipIdx.filter fun (x, _) => x.isFinite

/-- Points as two lists: the places and the numbers. -/
def asInk (points : List (Float × Nat)) : List Ink :=
  [.places (points.map Prod.snd), .numbers (points.map Prod.fst)]

/-- Makes sure that only known options are given. -/
def knowing (names : List String) (options : Value) : Draw Unit :=
  if options.fields.all fun option => names.contains option.1 then pure () else throw .wrongType

/-- The losses of a descent by iteration; on a logarithmic scale only the positive ones. Nothing is drawn
if there are none. -/
def lossCurve (losses : List Float) (title : Value) (logarithmic : Bool) : Draw Unit := do
  let points := (finitePoints losses).filter fun (x, _) => !logarithmic || 0.0 < x
  if points.isEmpty then return
  Draw.locate
  Draw.makeDirectory
  Draw.openFigure (.int 8) (.real 4.5)
  Draw.canvas "plot" (asInk points)
  Draw.canvas "xlabel" [.text "iteration"]
  Draw.canvas "ylabel" [.text "loss"]
  Draw.title .canvas "title" title
  if logarithmic then Draw.canvas "yscale" [.text "log"]
  Draw.finish

/-- The width of a position: a number is a row of one entry, a vector a row. -/
def width (t : Tensor Float) : Nat :=
  match t.shape with
  | [] => 1
  | [n] => n
  | _ :: n :: _ => n

/-- The rows of positions, one below the other; all have to have one width. -/
def stacked (positions : List (Tensor Float)) : Except Failure (Nat × List (List Float)) :=
  match positions with
  | [] => .error .incompatibleShapes
  | first :: rest =>
    let n := width first
    if rest.all fun t => width t == n then
      .ok (n, positions.flatMap fun t =>
        let rows := match t.shape with
          | m :: _ :: _ => m
          | _ => 1
        Tensor.blocks n rows t.entries)
    else .error .incompatibleShapes

/-- The column of some rows. -/
def column (i : Nat) (rows : List (List Float)) : Ink := .numbers (rows.map fun r => r.getD i 0.0)

/-- The path of one descent as a line, with a cross at its end. Only positions in the plane can be
drawn. -/
def path (label : Except Failure Value) (positions : List (Tensor Float)) : Draw Unit := do
  let (n, rows) ← (stacked positions : Except Failure _)
  if n ≠ 2 then
    Draw.close
    throw (.argument (.notPlanar n))
  let label ← label
  let last := rows.drop (rows.length - 1)
  Draw.stroke .canvas "plot" [column 0 rows, column 1 rows]
    [("marker", .text "."), ("label", .value label)]
  Draw.stroke .canvas "scatter" [column 0 last, column 1 last] [("marker", .text "x")]

/-- The label of a descent: the one given at its place, or its number. An object has no places. -/
def labelOf (labels : Value) (i : Nat) : Except Failure Value :=
  match labels with
  | .null => .ok (.text s!"run {i}")
  | .object _ => .error .absent
  | labels => do return (← labels.parts).getD i .null

/-- Makes sure that there are as many labels as descents, if labels are given. -/
def checkLabels (labels : Value) (count : Nat) : Except Failure Unit :=
  match labels with
  | .null => .ok ()
  | labels => do
    let given := (← labels.parts).length
    if given ≠ count then throw (.argument (.labelCount given count))

/-- Writes what stands around the paths, saves the picture and closes the figure. -/
def finishPaths (title : Value) : Draw Unit := do
  Draw.makeDirectory
  Draw.canvas "xlabel" [.text "x0"]
  Draw.canvas "ylabel" [.text "x1"]
  Draw.canvas "axis" [.text "equal"]
  Draw.title .canvas "title" title
  Draw.stroke .canvas "legend" [] [("loc", .text "best")]
  Draw.finish

/-- The paths of descents that have positions, with their labels. The figure is closed again if there
are none. -/
def paths (histories : List (History Float)) (labels title : Value) : Draw Unit := do
  checkLabels labels histories.length
  Draw.locate
  Draw.openFigure (.int 6) (.int 6)
  let shown := histories.zipIdx.filter fun (h, _) => !h.positions.isEmpty
  shown.forM fun (h, i) => path (labelOf labels i) h.positions
  if shown.isEmpty then Draw.close else finishPaths title

/-- What a chart of rounds shows of a snapshot. -/
structure Entry where
  constraints : Tensor Float
  loss : Float
  weight : Float

/-- The largest constraint value, zero if there are no constraints. -/
def Entry.largest (e : Entry) : Float := Scalar.largest e.constraints.entries

/-- What a chart of rounds shows of a given snapshot. -/
def Entry.ofSnapshot (s : Snapshot Float) : Entry := ⟨s.constraints, s.loss, s.weight⟩

/-- One panel with the finite numbers of a list. -/
def panel (i : Nat) (name : String) (xs : List Float) : Draw Unit := do
  Draw.stroke (.panel i) "plot" (asInk (finitePoints xs)) []
  Draw.stroke (.panel i) "set_ylabel" [.text name] []

/-- The loss, the weight and the largest constraint value by round. Nothing is drawn without any
rounds. -/
def rounds (entries : List Entry) (title : Value) : Draw Unit := do
  if entries.isEmpty then return
  Draw.locate
  Draw.makeDirectory
  Draw.stroke .canvas "subplots" [.value (.int 3), .value (.int 1)]
    [("figsize", .pair (.int 8) (.int 8)), ("sharex", .value (.bool true))]
  panel 0 "loss" (entries.map Entry.loss)
  panel 1 "mu" (entries.map Entry.weight)
  panel 2 "max g(x)" (entries.map Entry.largest)
  Draw.stroke (.panel 2) "axhline" [.value (.real 0.0)]
    [("color", .text "gray"), ("linestyle", .text "--"), ("linewidth", .value (.real 0.8))]
  Draw.stroke (.panel 2) "set_xlabel" [.text "trace entry"] []
  Draw.title .figure "suptitle" title
  Draw.stroke .figure "tight_layout" [] []
  Draw.stroke .figure "savefig" [.picture] []
  Draw.canvas "close" [.figure]

end Minimization.Chart
