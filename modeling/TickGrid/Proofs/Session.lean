import TickGrid.Session
import TickGrid.Proofs.Grid.RoundTrip
import TickGrid.Proofs.Decimal.Outcomes

/-!
# Sessions

A session writes the header, the examples when the settings ask for them, and then answers the
lines of its input in turn, each after a prompt.

`Session.lines` splits the input after each newline and keeps a last fragment without one
(`lines_append`, `lines_of_not_mem`). A line's report is `Session.step` of that line alone:
nothing for a blank line, the error line for a line that is no command, what the command wrote,
or only the error line when the command fails on a range error. A failed command has written
nothing (`execute_holds`): the conversions fail before they write, and the examples that `help`
and `examples` write never fail, since their ticks are all on the grid. No error quits.

Over a list of lines `Session.feed` answers the lines up to the first that quits and none after it,
and writes the farewell after a last prompt when none quits (`feed_cases`). The only thing that ends
a session early is an overflow in the answer to a line.

`run_transcript` assembles from these what a session writes.
-/

namespace TickGrid

/-- Range computations that each return a value with a property make a list that returns, of
values with the property. -/
lemma mapM_run_ok {α β : Type} {f : α → RangeM β} {P : β → Prop} :
    ∀ {xs : List α}, (∀ x ∈ xs, ∃ y, (f x).run = .ok (.ok y) ∧ P y) →
      ∃ ys, (xs.mapM f).run = .ok (.ok ys) ∧ ∀ y ∈ ys, P y
  | [], _ => ⟨[], rfl, fun _ h => absurd h List.not_mem_nil⟩
  | x :: xs, h => by
    obtain ⟨y, hy, hPy⟩ := h x List.mem_cons_self
    obtain ⟨ys, hys, hPys⟩ := mapM_run_ok fun x' hx' => h x' (List.mem_cons_of_mem x hx')
    refine ⟨y :: ys, ?_, List.forall_mem_cons.2 ⟨hPy, hPys⟩⟩
    rw [List.mapM_cons, Grid.run_bind_of_ok _ hy, Grid.run_bind_of_ok _ hys]
    rfl

/-- The example ticks are all on the grid, so their rows never meet a range error; each row holds
the price of its tick. -/
lemma exampleRows_ok : ∃ rows, exampleRows.run = .ok (.ok rows) ∧
    ∀ row ∈ rows, row.tick.natAbs ≤ Grid.maxTick ∧
      (Grid.priceOfTick row.tick).run = .ok (.ok row.price) := by
  have hall : ∀ x ∈ exampleTicks, x.1.natAbs ≤ Grid.maxTick := by decide
  apply mapM_run_ok
  rintro ⟨t, description⟩ hmem
  obtain ⟨p, hp, -⟩ := Grid.priceOfTick_near (hall _ hmem)
  exact ⟨⟨t, p, description⟩, by rw [Grid.run_bind_of_ok _ hp]; rfl, hall _ hmem, hp⟩

namespace Report

/-- The examples end well whenever they are written. -/
lemma examples_holds :
    Checked.Holds (fun _ => True) (fun o => o.result = .ok .proceed) Report.examples := by
  obtain ⟨rows, hrows, -⟩ := exampleRows_ok
  unfold Report.examples
  rw [hrows, Checked.ok_bind]
  exact (Checked.holds_true _).bind fun _ _ => (Checked.holds_ok _).2 rfl

end Report

namespace Command

/-- A command that fails on a range error has written nothing: the conversions fail before they
write, and the examples never fail. This holds whatever logarithm starts the tick searches. -/
lemma executeWith_holds (logBase : Binary64 → ℤ) (c : Command) :
    Checked.Holds (fun _ => True) (fun o => ∀ e, o.result = .error e → o.text = "")
      (c.executeWith logBase) := by
  cases c with
  | tickToPrice t =>
    rw [executeWith]
    refine (Checked.holds_true _).bind fun r _ => ?_
    cases r with
    | error e => exact (Checked.holds_ok _).2 fun _ _ => rfl
    | ok conv =>
      exact (Checked.holds_true _).bind fun _ _ => (Checked.holds_ok _).2 fun _ h => by cases h
  | priceToTick p =>
    rw [executeWith]
    refine (Checked.holds_true _).bind fun r _ => ?_
    cases r with
    | error e => exact (Checked.holds_ok _).2 fun _ _ => rfl
    | ok conv =>
      exact (Checked.holds_true _).bind fun _ _ => (Checked.holds_ok _).2 fun _ h => by cases h
  | help =>
    rw [executeWith]
    exact Report.examples_holds.bind fun o ho =>
      (Checked.holds_ok _).2 fun e he => by simp [ho] at he
  | examples =>
    rw [executeWith]
    exact Report.examples_holds.mono (fun _ h => h) fun o ho e he => by rw [ho] at he; cases he
  | quit => exact (Checked.holds_ok _).2 fun _ h => by cases h

/-- A command that fails on a range error has written nothing. -/
lemma execute_holds (c : Command) :
    Checked.Holds (fun _ => True) (fun o => ∀ e, o.result = .error e → o.text = "") c.execute :=
  executeWith_holds Grid.logTicks c

end Command

namespace Session

/-! ## Lines -/

/-- An input without a newline is one line, unless it is empty. -/
lemma lines_of_not_mem {cs : List Char} (h : '\n' ∉ cs) :
    lines (String.ofList cs) = if cs = [] then [] else [String.ofList cs] := by
  unfold lines
  rw [String.toList_ofList, List.splitOn_eq_singleton h]
  by_cases hcs : cs = [] <;> simp [hcs]

/-- An input splits after its first newline. -/
lemma lines_append {xs : List Char} (h : '\n' ∉ xs) (rest : List Char) :
    lines (String.ofList (xs ++ '\n' :: rest)) =
      String.ofList (xs ++ ['\n']) :: lines (String.ofList rest) := by
  unfold lines
  rw [String.toList_ofList, String.toList_ofList, List.splitOn_append_cons_self_of_not_mem h]
  -- the pieces of the rest are never an empty list
  obtain ⟨p, ps, hps⟩ := List.exists_cons_of_ne_nil (List.splitOn_ne_nil '\n' rest)
  simp only [hps, List.dropLast_cons_cons, List.getLast?_cons_cons, List.map_cons]
  rcases (p :: ps).getLast? with _ | last
  · simp
  · by_cases hl : last.isEmpty <;> simp [hl]

/-! ## Reports -/

/-- A blank line is answered with nothing, and the session goes on. -/
lemma step_of_blank {line : String} (h : (Command.parse line).run = .ok (.ok none)) :
    step line = .ok ("", .proceed) := by
  rw [step, h]
  rfl

/-- A line that is no command is answered with the error line, and the session goes on. -/
lemma step_of_parse_error {line : String} {e : CommandError}
    (h : (Command.parse line).run = .ok (.error e)) :
    step line = .ok (errorLine e.message, .proceed) := by
  rw [step, h]
  rfl

/-- A command that ends well is answered with what it wrote, and its flow. -/
lemma step_of_result_ok {line : String} {c : Command} {o : Outcome} {flow : Flow}
    (h : (Command.parse line).run = .ok (.ok (some c))) (hx : c.execute = .ok o)
    (hr : o.result = .ok flow) : step line = .ok (o.text, flow) := by
  rw [step, h, Checked.ok_bind]
  dsimp only
  rw [hx, Checked.ok_bind, hr]
  rfl

/-- A command that fails on a range error is answered with the error line alone, and the session
goes on. -/
lemma step_of_result_error {line : String} {c : Command} {o : Outcome} {e : RangeError}
    (h : (Command.parse line).run = .ok (.ok (some c))) (hx : c.execute = .ok o)
    (hr : o.result = .error e) :
    step line = (fun m => (errorLine m, Flow.proceed)) <$> e.message := by
  have htext := (Command.execute_holds c).1 o hx e hr
  rw [step, h, Checked.ok_bind]
  dsimp only
  rw [hx, Checked.ok_bind, hr]
  dsimp only
  rw [htext]
  cases e.message with
  | error err => rfl
  | ok m => simp [Functor.map, Except.map]

/-! ## Runs -/

/-- The line is answered with `r`, and the session goes on. -/
def Proceeds (line r : String) : Prop := step line = .ok (r, .proceed)

/-- What the answered lines wrote: each answer after a prompt. -/
def answered (settings : Settings) (rs : List String) : String :=
  String.join (rs.map (settings.prompt ++ ·))

lemma answered_cons (settings : Settings) (r : String) (rs : List String) :
    answered settings (r :: rs) = settings.prompt ++ r ++ answered settings rs := by
  simp [answered]

/-- A line that goes on writes its prompt and answer before the rest of the run. -/
lemma feed_of_proceeds (settings : Settings) {line r : String} (h : Proceeds line r)
    (rest : List String) :
    feed settings (line :: rest) = (fun b => settings.prompt ++ r ++ b) <$> feed settings rest := by
  rw [feed, h, Checked.ok_bind]
  dsimp only
  cases feed settings rest <;> rfl

/-- The run over a list of lines: the lines up to the first that quits are answered in turn, each
after a prompt, and no line after it is read; with no line that quits, a last prompt and the
farewell follow. An overflow in an answer ends the run with it. -/
theorem feed_cases (settings : Settings) (ls : List String) :
    (∃ rs, List.Forall₂ Proceeds ls rs ∧
      feed settings ls = .ok (answered settings rs ++ settings.prompt ++ "\n" ++ Report.goodbye)) ∨
    (∃ pre line post rs r, ls = pre ++ line :: post ∧ List.Forall₂ Proceeds pre rs ∧
      step line = .ok (r, .quit) ∧
      feed settings ls = .ok (answered settings rs ++ settings.prompt ++ r)) ∨
    (∃ pre line post rs e, ls = pre ++ line :: post ∧ List.Forall₂ Proceeds pre rs ∧
      step line = .error e ∧ feed settings ls = .error e) := by
  induction ls with
  | nil => exact .inl ⟨[], .nil, by simp [feed, answered]⟩
  | cons line rest ih =>
    rcases hs : step line with e | ⟨r, _ | _⟩
    · -- an overflow in the first answer
      exact .inr (.inr ⟨[], line, rest, [], e, rfl, .nil, hs, by rw [feed, hs]; rfl⟩)
    · -- the first line goes on, and the run of the rest follows its answer
      have hfeed := feed_of_proceeds settings hs rest
      rcases ih with ⟨rs, hrs, hf⟩ | ⟨pre, l, post, rs, r', rfl, hrs, hl, hf⟩ |
          ⟨pre, l, post, rs, e, rfl, hrs, hl, hf⟩
      · refine .inl ⟨r :: rs, .cons hs hrs, ?_⟩
        rw [hfeed, hf, answered_cons]
        simp [String.append_assoc]
      · refine .inr (.inl ⟨line :: pre, l, post, r :: rs, r', rfl, .cons hs hrs, hl, ?_⟩)
        rw [hfeed, hf, answered_cons]
        simp [String.append_assoc]
      · exact .inr (.inr ⟨line :: pre, l, post, r :: rs, e, rfl, .cons hs hrs, hl,
          by rw [hfeed, hf]; rfl⟩)
    · -- the first line quits
      refine .inr (.inl ⟨[], line, rest, [], r, rfl, .nil, hs, ?_⟩)
      rw [feed, hs, Checked.ok_bind]
      simp [answered]

/-- A session writes the header, then the examples exactly when the settings ask for them, and
then the run over its lines. -/
lemma run_eq (settings : Settings) (input : String) :
    run settings input =
      ((if settings.showExamples then Outcome.text <$> Report.examples else pure "") >>= fun ex =>
        feed settings (lines input) >>= fun body => pure ⟨Report.header ++ ex ++ body, none⟩) := by
  unfold run
  cases settings.showExamples
  · simp only [Bool.false_eq_true, if_false, Checked.pure_eq, Checked.ok_bind, String.append_empty]
  · simp only [if_true]
    cases hx : Report.examples with
    | error e => rfl
    | ok o =>
      have hr := (Checked.holds_ok o).1 (hx ▸ Report.examples_holds)
      rw [Checked.ok_bind, hr]
      rfl

/-- What a session writes, for all settings and every input: the header; the examples exactly when
the settings ask for them; then, for each line of the input split after each newline, a prompt and
the report of that line alone (nothing for a blank line, the error line for a line that is no
command or whose command fails on a range error, and what the command wrote otherwise) up to the
first line that quits and none after it; and when no line quits, a last prompt, an empty line and
the farewell. No error quits: only an overflow ends a session early. -/
theorem run_transcript (settings : Settings) (input : String) :
    (∀ xs rest, '\n' ∉ xs → lines (String.ofList (xs ++ '\n' :: rest)) =
      String.ofList (xs ++ ['\n']) :: lines (String.ofList rest)) ∧
    (∀ xs, '\n' ∉ xs → lines (String.ofList xs) = if xs = [] then [] else [String.ofList xs]) ∧
    run settings input =
      ((if settings.showExamples then Outcome.text <$> Report.examples else pure "") >>= fun ex =>
        feed settings (lines input) >>= fun body => pure ⟨Report.header ++ ex ++ body, none⟩) ∧
    ((∃ rs, List.Forall₂ Proceeds (lines input) rs ∧ feed settings (lines input) =
        .ok (answered settings rs ++ settings.prompt ++ "\n" ++ Report.goodbye)) ∨
      (∃ pre line post rs r, lines input = pre ++ line :: post ∧ List.Forall₂ Proceeds pre rs ∧
        step line = .ok (r, .quit) ∧
        feed settings (lines input) = .ok (answered settings rs ++ settings.prompt ++ r)) ∨
      (∃ pre line post rs e, lines input = pre ++ line :: post ∧ List.Forall₂ Proceeds pre rs ∧
        step line = .error e ∧ feed settings (lines input) = .error e)) ∧
    ∀ line, ((Command.parse line).run = .ok (.ok none) → step line = .ok ("", .proceed)) ∧
      (∀ e, (Command.parse line).run = .ok (.error e) →
        step line = .ok (errorLine e.message, .proceed)) ∧
      (∀ c o, (Command.parse line).run = .ok (.ok (some c)) → c.execute = .ok o →
        (∀ flow, o.result = .ok flow → step line = .ok (o.text, flow)) ∧
        (∀ e, o.result = .error e →
          step line = (fun m => (errorLine m, Flow.proceed)) <$> e.message)) :=
  ⟨fun _ rest h => lines_append h rest, fun _ h => lines_of_not_mem h, run_eq settings input,
    feed_cases settings (lines input), fun _ => ⟨step_of_blank, fun _ => step_of_parse_error,
      fun _ _ h hx => ⟨fun _ => step_of_result_ok h hx, fun _ => step_of_result_error h hx⟩⟩⟩

end Session

end TickGrid
