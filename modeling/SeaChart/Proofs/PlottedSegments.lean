import Mathlib.Data.List.Basic
import SeaChart.Plotter.Stroke

/-!
Strokes against a plotter that knows of none. Its pen obeys one command after the other and leaves
marks, which are segments and lifts; the strokes are the runs of segments between two lifts.
-/

namespace SeaChart.Plotter

open Text

section Reading

theorem Command.read_eq (s : String) : Command.read s =
    match s.toList with
    | 'S' :: 'P' :: rest => some (.selectPen (rest.headD 'A'))
    | 'S' :: 'W' :: rest =>
      some (.setWidth ((readWord (trimmed (String.ofList rest))).getD 1))
    | 'P' :: 'U' :: rest => some (.penUp (readNumbers (String.ofList rest)))
    | 'P' :: 'D' :: rest => some (.penDown (readNumbers (String.ofList rest)))
    | 'C' :: 'I' :: rest => some (.circle (readNumbers (String.ofList rest)))
    | _ => none := by
  have hcut (a b : Char) (rest : List Char) (ha : a.utf8Size = 1) (hb : b.utf8Size = 1) :
      splitAtByte 2 (a :: b :: rest) = some ([a, b], rest) :=
    (splitAtByte_eq_some_iff _ _ _ _).mpr ⟨rfl, by simp [byteCount, ha, hb]⟩
  have hcode {code : List Char} {text : String} (h : String.ofList code = text) :
      code = text.toList := by rw [← h, String.toList_ofList]
  cases hbytes : splitAtByte 2 s.toList with
  | none =>
    simp only [Command.read, hbytes]
    split
    case h_6 => rfl
    all_goals
      next h =>
      rw [h, hcut _ _ _ rfl rfl] at hbytes
      cases hbytes
  | some parts =>
    obtain ⟨code, rest⟩ := parts
    obtain ⟨hs, -⟩ := (splitAtByte_eq_some_iff _ _ _ _).mp hbytes
    simp only [Command.read, hbytes]
    split
    case h_6 hsp hsw hpu hpd hci =>
      split
      case h_6 => rfl
      all_goals
        next h =>
        rw [h, hcut _ _ _ rfl rfl] at hbytes
        cases hbytes
        contradiction
    all_goals
      next h =>
      rw [hs, hcode h]
      rfl

end Reading

structure Segment where
  pen : Char
  width : Nat
  start : Position
  stop : Position
deriving DecidableEq, Repr

inductive Mark where
  | drawn (segment : Segment)
  | lifted
deriving DecidableEq, Repr

def Mark.segment? : Mark → Option Segment
  | .drawn s => some s
  | .lifted => none

structure Pen where
  pen : Char := 'A'
  width : Nat := 1
  position : Position := (0, 0)

namespace Pen

def moveTo (p : Pen) (q : Position) : Pen :=
  { p with position := q }

def path (p : Pen) : List Position → List Segment
  | [] => []
  | q :: qs => ⟨p.pen, p.width, p.position, q⟩ :: (p.moveTo q).path qs

def outline (p : Pen) : List Position → List Segment
  | [] => []
  | q :: qs => (p.moveTo q).path qs

def finished (word : List Char) : List String :=
  if word = [] then [] else [String.ofList word]

/-- The commands of a text. `word` is what was read of one, and `gap` the blanks after that. -/
def commandsFrom (word gap : List Char) : List Char → List String
  | [] => finished word
  | c :: cs =>
    if c = ';' then finished word ++ commandsFrom [] [] cs
    else if isBlank c then
      if word = [] then commandsFrom [] [] cs else commandsFrom word (gap ++ [c]) cs
    else commandsFrom (word ++ gap ++ [c]) [] cs

def commands (text : String) : List String :=
  commandsFrom [] [] text.toList

def coordinates (numbers : List Int) : List Position :=
  (List.range (numbers.length / 2)).map fun k =>
    (numbers.getD (2 * k) 0, numbers.getD (2 * k + 1) 0)

def destination (p : Pen) (numbers : List Int) : Position :=
  if h : 2 ≤ numbers.length then
    (numbers[numbers.length - 2], numbers[numbers.length - 1])
  else p.position

def obey (p : Pen) (command : String) : Pen × List Mark :=
  match command.toList with
  | 'S' :: 'P' :: rest => ({ p with pen := rest.headD 'A' }, [.lifted])
  | 'S' :: 'W' :: rest =>
    ({ p with width := (readWord (trimmed (String.ofList rest))).getD 1 }, [.lifted])
  | 'P' :: 'U' :: rest =>
    (p.moveTo (p.destination (readNumbers (String.ofList rest))), [.lifted])
  | 'P' :: 'D' :: rest =>
    let numbers := readNumbers (String.ofList rest)
    let points := if numbers = [] then [p.position] else coordinates numbers
    (p.moveTo (points.getLastD p.position), (p.path points).map .drawn)
  | 'C' :: 'I' :: rest =>
    match readNumbers (String.ofList rest) with
    | [] => (p, [.lifted])
    | radius :: _ =>
      let circle := p.outline (circlePath p.position radius)
      (p, .lifted :: circle.map .drawn ++ [.lifted])
  | _ => (p, [])

def plot (p : Pen) : List String → List Mark
  | [] => []
  | command :: commands => (p.obey command).2 ++ (p.obey command).1.plot commands

section Commands

theorem trimmedPieces_eq (cs : List Char) :
    trimmedPieces ';' (String.ofList cs) =
      (cs.splitOn ';').flatMap fun piece => finished (trim piece) := by
  rw [trimmedPieces, pieces, String.toList_ofList, List.map_map]
  induction cs.splitOn ';' with
  | nil => rfl
  | cons piece rest ih =>
    rw [List.map_cons, List.filter_cons, List.flatMap_cons, ih]
    by_cases hblank : trim piece = []
    · simp [trimmed, finished, hblank]
    · simp [trimmed, finished, hblank]

theorem commandsFrom_eq (lead word gap cs : List Char) (hlead : isBlankText lead = true)
    (hword : IsSolid word) (hgap : isBlankText gap = true) (hnone : word = [] → gap = [])
    (hcut : ';' ∉ lead ++ word ++ gap) :
    commandsFrom word gap cs =
      trimmedPieces ';' (String.ofList (lead ++ word ++ gap ++ cs)) := by
  have htrim := hword.trim_between hlead hgap
  rw [trimmedPieces_eq]
  -- A blank before the word goes to `lead`, and one after it to `gap`.
  induction cs generalizing lead word gap with
  | nil =>
    rw [List.append_nil, List.splitOn_eq_singleton hcut, List.flatMap_singleton, htrim]
    rfl
  | cons c cs ih =>
    rw [commandsFrom]
    split
    · next hc =>
      have hrest := ih [] [] [] rfl (by decide) rfl (fun _ => rfl) List.not_mem_nil rfl
      rw [hc, List.splitOn_append_cons_self_of_not_mem hcut, List.flatMap_cons, htrim, hrest]
      rfl
    · next hc =>
      have hmore : ';' ∉ lead ++ word ++ gap ++ [c] := by
        intro hmem
        rcases List.mem_append.mp hmem with hmem | hmem
        · exact hcut hmem
        · exact hc (List.mem_singleton.mp hmem).symm
      split
      · next hblank =>
        split
        · next hempty =>
          obtain rfl := hnone hempty
          subst hempty
          have hlead' := isBlankText_append_singleton hlead hblank
          have hrest := ih (lead ++ [c]) [] [] hlead' hword rfl hnone (by simpa using hmore)
            (hword.trim_between hlead' rfl)
          simpa using hrest
        · next hne =>
          have hgap' := isBlankText_append_singleton hgap hblank
          have hrest := ih lead word (gap ++ [c]) hlead hword hgap' (fun h => absurd h hne)
            (by simpa using hmore) (hword.trim_between hlead hgap')
          simpa using hrest
      · next hblank =>
        have hword' := hword.append_singleton hnone (Bool.eq_false_iff.mpr hblank)
        have hrest := ih lead (word ++ gap ++ [c]) [] hlead hword' rfl (fun _ => rfl)
          (by simpa using hmore) (hword'.trim_between hlead rfl)
        simpa using hrest

theorem commands_eq (text : String) : commands text = trimmedPieces ';' text := by
  have hread := commandsFrom_eq [] [] [] text.toList rfl (by decide) rfl (fun _ => rfl)
    List.not_mem_nil
  rw [commands, hread]
  simp

end Commands

theorem coordinates_eq (numbers : List Int) : coordinates numbers = pairs numbers := by
  fun_induction pairs numbers with
  | case1 x y ns ih =>
    have hlength : (x :: y :: ns).length / 2 = ns.length / 2 + 1 := by
      simp only [List.length_cons]
      omega
    rw [← ih, coordinates, hlength, List.range_succ_eq_map, List.map_cons, List.map_map]
    rfl
  | case2 ns h =>
    rcases ns with _ | ⟨x, _ | ⟨y, ns⟩⟩
    · rfl
    · simp [coordinates]
    · exact absurd rfl (h x y ns)

theorem getD_lastPair (p : Pen) (numbers : List Int) :
    (lastPair numbers).getD p.position = p.destination numbers := by
  rw [← List.reverse_reverse numbers]
  generalize numbers.reverse = reversed
  rcases reversed with _ | ⟨y, _ | ⟨x, front⟩⟩
  · rfl
  · rfl
  · simp [lastPair, destination]

theorem path_append (p : Pen) (xs ys : List Position) :
    p.path (xs ++ ys) = p.path xs ++ (p.moveTo (xs.getLastD p.position)).path ys := by
  induction xs generalizing p with
  | nil => rfl
  | cons x xs ih =>
    have hlast : (x :: xs).getLastD p.position = xs.getLastD x := by
      cases xs <;> rfl
    rw [List.cons_append, path, path, ih, hlast]
    rfl

end Pen

def Stroke.segments (s : Stroke) : List Segment :=
  (s.points.zip s.points.tail).map fun (start, stop) => ⟨s.pen, s.width, start, stop⟩

def runs (marks : List Mark) : List (List Segment) :=
  ((marks.splitOn .lifted).map (List.filterMap Mark.segment?)).filter (· ≠ [])

section Runs

theorem filterMap_segment?_drawn (segments : List Segment) :
    (segments.map Mark.drawn).filterMap Mark.segment? = segments := by
  simp [List.filterMap_map, Function.comp_def, Mark.segment?]

theorem lifted_notMem (segments : List Segment) : Mark.lifted ∉ segments.map .drawn := by
  simp

theorem runs_drawn (segments : List Segment) :
    runs (segments.map .drawn) = [segments].filter (· ≠ []) := by
  rw [runs, List.splitOn_eq_singleton (lifted_notMem segments), List.map_singleton,
    filterMap_segment?_drawn]

theorem runs_drawn_append_lifted (segments : List Segment) (marks : List Mark) :
    runs (segments.map .drawn ++ .lifted :: marks) =
      [segments].filter (· ≠ []) ++ runs marks := by
  rw [← runs_drawn, runs, List.splitOn_append_cons_self, List.map_append, List.filter_append]
  rfl

theorem flatMap_filterMap_splitOn {α β : Type} [BEq α] [LawfulBEq α] (f : α → Option β) (a : α)
    (ha : f a = none) (xs : List α) :
    (xs.splitOn a).flatMap (List.filterMap f) = xs.filterMap f := by
  induction xs with
  | nil => rfl
  | cons x xs ih =>
    rw [List.splitOn_cons_eq_if_modifyHead]
    split
    · next hx =>
      rw [beq_iff_eq] at hx
      rw [hx, List.flatMap_cons, ih, List.filterMap_cons_none ha]
      rfl
    · obtain ⟨y, ys, hys⟩ := List.exists_cons_of_ne_nil (List.splitOn_ne_nil a xs)
      rw [hys, List.flatMap_cons] at ih
      rw [hys, List.modifyHead_cons, List.flatMap_cons, List.filterMap_cons, List.filterMap_cons]
      cases f x with
      | none => exact ih
      | some b => rw [List.cons_append, ih]

theorem flatten_runs (marks : List Mark) :
    (runs marks).flatten = marks.filterMap Mark.segment? := by
  rw [runs, ← flatMap_filterMap_splitOn Mark.segment? .lifted rfl, List.flatMap_def]
  generalize (marks.splitOn .lifted).map (List.filterMap Mark.segment?) = groups
  induction groups with
  | nil => rfl
  | cons group groups ih =>
    by_cases hgroup : group = []
    · simpa [hgroup] using ih
    · simpa [hgroup] using ih

end Runs

namespace Stroke

theorem segments_cons (pen : Char) (width : Nat) (q : Position) (qs : List Position) :
    segments ⟨pen, width, q :: qs⟩ = Pen.path ⟨pen, width, q⟩ qs := by
  induction qs generalizing q with
  | nil => rfl
  | cons r rs ih =>
    rw [Pen.path, Pen.moveTo, ← ih r]
    rfl

theorem segments_eq_outline (p : Pen) (points : List Position) :
    segments ⟨p.pen, p.width, points⟩ = p.outline points := by
  cases points with
  | nil => rfl
  | cons q qs => exact segments_cons p.pen p.width q qs

theorem segments_eq_nil_iff (s : Stroke) : s.segments = [] ↔ s.points.length ≤ 1 := by
  obtain ⟨pen, width, points⟩ := s
  rcases points with _ | ⟨p, _ | ⟨q, points⟩⟩ <;> simp [segments]

theorem segments_append {s : Stroke} {p : Pen} (hpen : s.pen = p.pen) (hwidth : s.width = p.width)
    (hlast : s.points.getLast? = some p.position) (points : List Position) :
    segments { s with points := s.points ++ points } = s.segments ++ p.path points := by
  obtain ⟨pen, width, start⟩ := s
  obtain ⟨pen', width', position⟩ := p
  cases hpen
  cases hwidth
  cases start with
  | nil => cases hlast
  | cons q qs =>
    have hposition : qs.getLastD q = position := by
      rw [List.getLast?_cons] at hlast
      simpa using hlast
    rw [List.cons_append, segments_cons, segments_cons, Pen.path_append, Pen.moveTo, hposition]

end Stroke

namespace State

def openSegments (s : State) : List Segment :=
  s.current.elim [] Stroke.segments

def runsWith (s : State) (marks : List Mark) : List (List Segment) :=
  s.finished.map Stroke.segments ++ runs (s.openSegments.map .drawn ++ marks)

structure Agrees (s : State) (p : Pen) : Prop where
  pen : s.pen = p.pen
  width : s.width = p.width
  position : s.position = p.position
  current : ∀ stroke ∈ s.current,
    stroke.pen = p.pen ∧ stroke.width = p.width ∧ stroke.points.getLast? = some p.position

section Steps

variable {s : State} {p : Pen}

theorem agrees_lift (h : s.Agrees p) : s.lift.Agrees p := by
  obtain ⟨pen, width, position, current, finished⟩ := s
  cases current with
  | none => exact h
  | some stroke => exact ⟨h.pen, h.width, h.position, by simp [lift]⟩

theorem current_lift (s : State) : s.lift.current = none := by
  obtain ⟨pen, width, position, current, finished⟩ := s
  cases current <;> rfl

theorem runsWith_lift (s : State) (marks : List Mark) :
    s.lift.runsWith marks = s.runsWith (.lifted :: marks) := by
  obtain ⟨pen, width, position, current, finished⟩ := s
  rw [runsWith, runsWith, runs_drawn_append_lifted]
  cases current with
  | none => rfl
  | some stroke =>
    by_cases hlength : stroke.points.length ≤ 1
    · have hsegments := stroke.segments_eq_nil_iff.mpr hlength
      simp [lift, openSegments, hlength, hsegments]
    · have hsegments := mt stroke.segments_eq_nil_iff.mp hlength
      simp [lift, openSegments, hlength, hsegments]

theorem runsWith_append_drawn {t : State} {segments : List Segment}
    (hfinished : t.finished = s.finished) (hopen : t.openSegments = s.openSegments ++ segments)
    (marks : List Mark) : t.runsWith marks = s.runsWith (segments.map .drawn ++ marks) := by
  rw [runsWith, runsWith, hfinished, hopen, List.map_append, List.append_assoc]

theorem openSegments_of_current_none (h : s.current = none) : s.openSegments = [] := by
  rw [openSegments, h]
  rfl

theorem agrees_of_current_none (h : s.current = none) (hpen : s.pen = p.pen)
    (hwidth : s.width = p.width) (hposition : s.position = p.position) : s.Agrees p :=
  ⟨hpen, hwidth, hposition, by simp [h]⟩

def openStroke (s : State) : Stroke :=
  s.current.getD ⟨s.pen, s.width, [s.position]⟩

theorem openStroke_of_agrees (h : s.Agrees p) :
    s.openStroke.pen = p.pen ∧ s.openStroke.width = p.width ∧
      s.openStroke.points.getLast? = some p.position := by
  obtain ⟨pen, width, position, current, finished⟩ := s
  cases current with
  | none => exact ⟨h.pen, h.width, congrArg some h.position⟩
  | some stroke => exact h.current stroke rfl

theorem segments_openStroke (s : State) : s.openStroke.segments = s.openSegments := by
  obtain ⟨pen, width, position, current, finished⟩ := s
  cases current <;> rfl

def Follows (s next : State) (p : Pen) (marks : List Mark) : Prop :=
  next.Agrees p ∧ ∀ rest, next.runsWith rest = s.runsWith (marks ++ rest)

theorem follows_selectPen (h : s.Agrees p) (pen : Char) :
    s.Follows (s.step (.selectPen pen)) { p with pen } [.lifted] := by
  have hlift := agrees_lift h
  exact ⟨agrees_of_current_none s.current_lift rfl hlift.width hlift.position, runsWith_lift s⟩

theorem follows_setWidth (h : s.Agrees p) (width : Nat) :
    s.Follows (s.step (.setWidth width)) { p with width } [.lifted] := by
  have hlift := agrees_lift h
  exact ⟨agrees_of_current_none s.current_lift hlift.pen rfl hlift.position, runsWith_lift s⟩

theorem follows_penUp (h : s.Agrees p) (numbers : List Int) :
    s.Follows (s.step (.penUp numbers)) (p.moveTo (p.destination numbers)) [.lifted] := by
  have hlift := agrees_lift h
  refine ⟨agrees_of_current_none s.current_lift hlift.pen hlift.width ?_, runsWith_lift s⟩
  simp only [step, Pen.moveTo, hlift.position, Pen.getD_lastPair]

theorem follows_penDown (h : s.Agrees p) (numbers : List Int) :
    s.Follows (s.step (.penDown numbers))
      (p.moveTo ((visited p.position numbers).getLastD p.position))
      ((p.path (visited p.position numbers)).map .drawn) := by
  obtain ⟨hpen, hwidth, hlast⟩ := openStroke_of_agrees h
  rw [← h.position]
  constructor
  · refine ⟨h.pen, h.width, rfl, ?_⟩
    rintro _ ⟨⟩
    refine ⟨hpen, hwidth, ?_⟩
    change (s.openStroke.points ++ visited s.position numbers).getLast? = _
    rw [List.getLast?_append, hlast, Pen.moveTo, List.getLastD_eq_getLast?, h.position]
    cases (visited p.position numbers).getLast? <;> rfl
  · intro rest
    have hopen := Stroke.segments_append hpen hwidth hlast (visited s.position numbers)
    rw [segments_openStroke] at hopen
    exact runsWith_append_drawn (s := s) (t := s.step (.penDown numbers)) rfl hopen rest

theorem follows_circle (h : s.Agrees p) (radius : Int) (numbers : List Int) :
    s.Follows (s.step (.circle (radius :: numbers))) p
      (.lifted :: (p.outline (circlePath p.position radius)).map .drawn ++ [.lifted]) := by
  have hlift := agrees_lift h
  refine ⟨⟨hlift.pen, hlift.width, hlift.position, hlift.current⟩, fun rest => ?_⟩
  have hnone := openSegments_of_current_none s.current_lift
  have hcircle : Stroke.segments ⟨s.lift.pen, s.lift.width, circlePath s.lift.position radius⟩ =
      p.outline (circlePath p.position radius) := by
    rw [hlift.pen, hlift.width, hlift.position, Stroke.segments_eq_outline]
  have hne : p.outline (circlePath p.position radius) ≠ [] := by
    rw [← Stroke.segments_eq_outline, ne_eq, Stroke.segments_eq_nil_iff, length_circlePath]
    decide
  rw [List.append_assoc, List.cons_append, ← runsWith_lift, List.singleton_append, runsWith,
    runsWith, hnone, List.map_nil, List.nil_append, runs_drawn_append_lifted]
  simp [step, openSegments, s.current_lift, hcircle, hne]

theorem follows_obey (h : s.Agrees p) (command : String) :
    s.Follows ((Command.read command).elim s s.step) (p.obey command).1 (p.obey command).2 := by
  rw [Command.read_eq]
  unfold Pen.obey
  split
  · exact follows_selectPen h _
  · exact follows_setWidth h _
  · exact follows_penUp h _
  · simp only [Pen.coordinates_eq]
    exact follows_penDown h _
  · next rest _ =>
    cases readNumbers (String.ofList rest) with
    | nil => exact ⟨agrees_lift h, runsWith_lift s⟩
    | cons radius numbers => exact follows_circle h radius numbers
  · exact ⟨h, fun _ => rfl⟩

end Steps

theorem map_segments_finished_lift (s : State) :
    s.lift.finished.map Stroke.segments = s.runsWith [] := by
  have hlift := s.runsWith_lift []
  rw [runsWith, runsWith, openSegments_of_current_none s.current_lift,
    runs_drawn_append_lifted] at hlift
  rw [runsWith, List.append_nil, runs_drawn]
  simpa [runs] using hlift

theorem map_segments_foldl {s : State} {p : Pen} (h : s.Agrees p) (commands : List String) :
    ((commands.filterMap Command.read).foldl step s).lift.finished.map Stroke.segments =
      s.runsWith (p.plot commands) := by
  induction commands generalizing s p with
  | nil => exact map_segments_finished_lift s
  | cons command commands ih =>
    obtain ⟨hnext, hruns⟩ := follows_obey h command
    rw [Pen.plot, ← hruns, ← ih hnext]
    cases hread : Command.read command with
    | none => rw [List.filterMap_cons_none hread, Option.elim_none]
    | some c => rw [List.filterMap_cons_some hread, List.foldl_cons, Option.elim_some]

theorem two_le_length_lift {s : State} (h : ∀ stroke ∈ s.finished, 2 ≤ stroke.points.length) :
    ∀ stroke ∈ s.lift.finished, 2 ≤ stroke.points.length := by
  obtain ⟨pen, width, position, current, finished⟩ := s
  cases current with
  | none => exact h
  | some last =>
    intro stroke hstroke
    simp only [lift] at hstroke
    split at hstroke
    · exact h stroke hstroke
    · rw [List.mem_append, List.mem_singleton] at hstroke
      obtain hstroke | rfl := hstroke
      · exact h stroke hstroke
      · omega

theorem two_le_length_step {s : State} (h : ∀ stroke ∈ s.finished, 2 ≤ stroke.points.length)
    (command : Command) : ∀ stroke ∈ (s.step command).finished, 2 ≤ stroke.points.length := by
  have hlift := two_le_length_lift h
  cases command with
  | selectPen pen => exact hlift
  | setWidth width => exact hlift
  | penUp numbers => exact hlift
  | penDown numbers => exact h
  | circle numbers =>
    cases numbers with
    | nil => exact hlift
    | cons radius numbers =>
      intro stroke hstroke
      obtain hstroke | hstroke := List.mem_append.mp hstroke
      · exact hlift stroke hstroke
      · rw [List.mem_singleton.mp hstroke, length_circlePath]
        decide

theorem two_le_length_foldl {s : State} (h : ∀ stroke ∈ s.finished, 2 ≤ stroke.points.length)
    (commands : List Command) :
    ∀ stroke ∈ (commands.foldl step s).finished, 2 ≤ stroke.points.length := by
  induction commands generalizing s with
  | nil => exact h
  | cons command commands ih => exact ih (two_le_length_step h command)

end State

/--
The strokes of a text have two points or more, and their segments are those that the plotter
draws. A stroke ends only where the plotter lifts its pen.
-/
theorem strokes_plotted (text : String) :
    let marks := Pen.plot {} (Pen.commands text)
    (∀ stroke ∈ strokes text, 2 ≤ stroke.points.length) ∧
      (strokes text).flatMap Stroke.segments = marks.filterMap Mark.segment? ∧
      (strokes text).map Stroke.segments = runs marks := by
  intro marks
  have hagrees : State.Agrees {} {} := ⟨rfl, rfl, rfl, by simp⟩
  have hruns : (strokes text).map Stroke.segments = runs marks := by
    simp only [marks, Pen.commands_eq]
    exact State.map_segments_foldl hagrees (trimmedPieces ';' text)
  have hlength : ∀ stroke ∈ ({} : State).finished, 2 ≤ stroke.points.length := by
    intro stroke hstroke
    cases hstroke
  refine ⟨State.two_le_length_lift (State.two_le_length_foldl hlength _), ?_, hruns⟩
  rw [List.flatMap_def, hruns, flatten_runs]

theorem strokes_plotted_twoPens :
    let text := " SPA ; SW2;PU0,0;PD10,0,\t10 ,x,20,7;é;;P;SPB;\nPD; "
    Pen.commands text =
        ["SPA", "SW2", "PU0,0", "PD10,0,\t10 ,x,20,7", "é", "P", "SPB", "PD"] ∧
      strokes text =
        [⟨'A', 2, [(0, 0), (10, 0), (10, 20)]⟩, ⟨'B', 2, [(10, 20), (10, 20)]⟩] ∧
      (Pen.plot {} (Pen.commands text)).filterMap Mark.segment? =
        [⟨'A', 2, (0, 0), (10, 0)⟩, ⟨'A', 2, (10, 0), (10, 20)⟩,
          ⟨'B', 2, (10, 20), (10, 20)⟩] := by
  intro text
  have hstrokes : strokes text =
      [⟨'A', 2, [(0, 0), (10, 0), (10, 20)]⟩, ⟨'B', 2, [(10, 20), (10, 20)]⟩] := by
    decide +kernel
  obtain ⟨-, hsegments, -⟩ := strokes_plotted text
  rw [hstrokes] at hsegments
  exact ⟨by decide +kernel, hstrokes, hsegments.symm⟩

end SeaChart.Plotter
