import Mathlib.Data.List.TakeWhile
import FfbInterceptor.Launcher.Arguments

/-! What the manager quotes arrives: at the launcher, and behind its command line at the game. -/
namespace FfbInterceptor.Launcher
open FfbInterceptor.Library

section Quoting

variable {doubled : DoubledQuote} {rest : WString}

theorem quoteLoop_eq (backslashes : Nat) (quoted argument : WString) :
    quoteLoop backslashes quoted argument = quoted ++ windows.escape backslashes argument := by
  induction argument generalizing backslashes quoted with
  | nil =>
    rw [quoteLoop, CommandLine.escape, List.append_assoc]
    rfl
  | cons character argument ih =>
    have hbackslash : windows.backslash = backslash := rfl
    have hquote : windows.quote = quotationMark := rfl
    rw [quoteLoop, CommandLine.escape, hbackslash, hquote]
    by_cases hb : character = backslash
    · rw [if_pos hb, if_pos hb, ih]
    by_cases hq : character = quotationMark
    · rw [if_neg hb, if_pos hq, if_neg hb, if_pos hq, ih]
      simp
    · rw [if_neg hb, if_neg hq, if_neg hb, if_neg hq, ih]
      simp

/-- An argument is quoted when it is empty or holds a blank or a quote. -/
theorem quote_cases (argument : WString) :
    (quote argument = argument ∧ argument ≠ [] ∧
      ∀ c ∈ argument, windows.blank c = false ∧ c ≠ windows.quote) ∨
    quote argument = windows.quote :: windows.escape 0 argument := by
  cases argument with
  | nil => exact Or.inr rfl
  | cons first argument =>
    unfold quote
    split
    · rename_i hempty
      cases hempty
    · split
      · rename_i hplain
        refine Or.inl ⟨rfl, List.cons_ne_nil _ _, ?_⟩
        intro c hc
        rw [Bool.not_eq_true', List.any_eq_false] at hplain
        have hother := hplain c hc
        simp only [Bool.or_eq_true, decide_eq_true_eq, not_or] at hother
        refine ⟨?_, hother.2⟩
        simp [windows, hother.1]
      · exact Or.inr (quoteLoop_eq 0 [quotationMark] (first :: argument))

example : quoteCommandArgument (wide "slash \\") = wide "\"slash \\\\\"" := by decide

/-- Splitting gives a quoted argument back. -/
theorem splitFrom_quote (h : windows.Ends rest) (argument : WString) :
    windows.splitFrom doubled false 0 none (quote argument ++ rest) =
      argument :: windows.splitFrom doubled false 0 none rest := by
  cases quote_cases argument with
  | inl hplain =>
    obtain ⟨hquote, hne, hplain⟩ := hplain
    rw [hquote]
    cases argument with
    | nil => exact absurd rfl hne
    | cons first argument =>
      rw [List.cons_append, CommandLine.splitFrom_begin (hplain first List.mem_cons_self).1,
        ← List.cons_append, CommandLine.splitFrom_plain hplain h]
      rfl
  | inr hquoted =>
    rw [hquoted, List.cons_append, CommandLine.splitFrom_open, CommandLine.splitFrom_escape h]
    rfl

/-- The program's name comes back, but for the backslashes at the end of a quoted one. -/
theorem splitProgram_quote (h : windows.Ends rest) (path : FilePath) :
    ∃ count, windows.splitProgram (quote path.value ++ rest) =
        (path.value ++ List.replicate count backslash, rest) ∧
      (path.value.getLast? ≠ some backslash → count = 0) := by
  cases quote_cases path.value with
  | inl hplain =>
    obtain ⟨hquote, -, hplain⟩ := hplain
    refine ⟨0, ?_, fun _ => rfl⟩
    rw [hquote, CommandLine.splitProgram_plain hplain h, List.replicate_zero, List.append_nil]
  | inr hquoted =>
    obtain ⟨count, hescape, hcount⟩ :=
      CommandLine.escape_of_quoteFree (L := windows) path.quoteFree 0
    refine ⟨count, ?_, hcount⟩
    have hquotes : windows.quote ∉ path.value ++ List.replicate count backslash := by
      rw [List.mem_append, not_or]
      refine ⟨path.quoteFree, ?_⟩
      intro hmem
      exact windows.quote_ne_backslash (List.eq_of_mem_replicate hmem)
    have hline := CommandLine.splitProgram_quoted hquotes rest
    rw [hquoted, hescape]
    simp only [List.replicate_zero, List.nil_append, List.cons_append, List.append_assoc] at hline ⊢
    exact hline

def quotedArguments (arguments : List WString) : WString :=
  arguments.flatMap fun argument => space :: quote argument

theorem ends_quotedArguments (arguments : List WString) : windows.Ends (quotedArguments arguments) := by
  cases arguments with
  | nil => rintro c cs ⟨⟩
  | cons argument arguments =>
    rintro c cs ⟨⟩
    rfl

theorem splitFrom_quotedArguments (arguments : List WString) :
    windows.splitFrom doubled false 0 none (quotedArguments arguments) = arguments := by
  induction arguments with
  | nil => rfl
  | cons argument arguments ih =>
    have hstep : windows.splitFrom doubled false 0 none _ = _ :=
      splitFrom_quote (ends_quotedArguments arguments) argument
    rw [ih] at hstep
    exact hstep

theorem foldl_quote (command : WString) (arguments : List WString) :
    arguments.foldl (fun command argument => command ++ [space] ++ quote argument) command =
      command ++ quotedArguments arguments := by
  induction arguments generalizing command with
  | nil => exact (List.append_nil command).symm
  | cons argument arguments ih =>
    rw [List.foldl_cons, ih]
    simp [quotedArguments]

end Quoting

section Vectors

theorem cString_of_nulFree {value : WString} (h : ∀ c ∈ value, c ≠ 0) : cString value = value :=
  List.takeWhile_eq_self_iff.mpr fun c hc => decide_eq_true (h c hc)

theorem nulFree_quote {argument : WString} (h : ∀ c ∈ argument, c ≠ 0) : ∀ c ∈ quote argument, c ≠ 0 := by
  cases quote_cases argument with
  | inl hplain =>
    rw [hplain.1]
    exact h
  | inr hquoted =>
    rw [hquoted, List.forall_mem_cons]
    exact ⟨by decide, CommandLine.forall_escape (by decide) (by decide) h 0⟩

theorem nulFree_quotedArguments {arguments : List WString} (h : ∀ a ∈ arguments, ∀ c ∈ a, c ≠ 0) :
    ∀ c ∈ quotedArguments arguments, c ≠ 0 := by
  intro c hc
  obtain ⟨argument, hargument, hmem⟩ := List.mem_flatMap.mp hc
  cases List.mem_cons.mp hmem with
  | inl hspace =>
    rw [hspace]
    decide
  | inr hquoted => exact nulFree_quote (h argument hargument) c hquoted

theorem argumentVector_quoted (doubled : DoubledQuote) (path : FilePath) {arguments : List WString}
    (h : ∀ a ∈ arguments, ∀ c ∈ a, c ≠ 0) :
    ∃ count, argumentVector doubled (quote path.value ++ quotedArguments arguments) =
        (path.value ++ List.replicate count backslash) :: arguments ∧
      (path.value.getLast? ≠ some backslash → count = 0) := by
  have hpath : ∀ c ∈ path.value, c ≠ 0 := by
    rintro c hc rfl
    exact path.nulFree hc
  have hline : ∀ c ∈ quote path.value ++ quotedArguments arguments, c ≠ 0 := by
    intro c hc
    cases List.mem_append.mp hc with
    | inl hprogram => exact nulFree_quote hpath c hprogram
    | inr hrest => exact nulFree_quotedArguments h c hrest
  obtain ⟨count, hprogram, hcount⟩ := splitProgram_quote (ends_quotedArguments arguments) path
  refine ⟨count, ?_, hcount⟩
  rw [argumentVector, cString_of_nulFree hline, CommandLine.split, hprogram,
    splitFrom_quotedArguments]

theorem nulFree_argumentVector (doubled : DoubledQuote) (commandLine : WString) :
    ∀ a ∈ (argumentVector doubled commandLine).tail, ∀ c ∈ a, c ≠ 0 := by
  have hline : ∀ c ∈ cString commandLine, c ≠ 0 :=
    fun c hc => of_decide_eq_true (List.mem_takeWhile_imp (p := fun c => decide (c ≠ 0)) hc)
  exact CommandLine.forall_splitFrom (by decide) (by decide)
    (fun c hc => hline c (CommandLine.mem_splitProgram hc)) (fun c hc => absurd hc List.not_mem_nil)

end Vectors

section Arrival

/-- The launcher finds the arguments the manager has quoted, and the game those the launcher has, behind
its own path as the launcher has resolved it. The two programs may differ in doubled quotes. -/
def Arrives (doubled doubled' : DoubledQuote) (launcher game resolved : FilePath)
    (arguments : List WString) : Prop :=
  ∀ line, processCommandLine launcher.value (launcherArguments game.value arguments) = .ok line →
    optionLoop false {} ((argumentVector doubled line).drop 1) = .ok (true, ⟨game.value, arguments⟩) ∧
    (game.value ≠ [] → wmain (argumentVector doubled line) = .ok ⟨game.value, arguments⟩) ∧
    ∃ program, argumentVector doubled' (buildCommandLine ⟨resolved.value, arguments⟩) =
        program :: arguments ∧
      (resolved.value.getLast? ≠ some backslash → program = resolved.value)

theorem optionLoop_launcherArguments (game : WString) (arguments : List WString) :
    optionLoop false {} (launcherArguments game arguments) = .ok (true, ⟨game, arguments⟩) := by
  have hoffline : ¬ (wide "--offline-only" = wide "--help" ∨ wide "--offline-only" = wide "-h") := by
    decide
  have hgame : ¬ (wide "--game" = wide "--help" ∨ wide "--game" = wide "-h") ∧
      wide "--game" ≠ wide "--offline-only" := by decide
  have hend : ¬ (wide "--" = wide "--help" ∨ wide "--" = wide "-h") ∧
      wide "--" ≠ wide "--offline-only" ∧ wide "--" ≠ wide "--game" := by decide
  simp only [launcherArguments, List.cons_append, List.nil_append, optionLoop, hoffline, hgame,
    ↓reduceIte]
  unfold optionLoop
  simp only [hend, ↓reduceIte, List.nil_append]

theorem arrives (doubled doubled' : DoubledQuote) (launcher game resolved : FilePath)
    {arguments : List WString} (h : ∀ a ∈ arguments, ∀ c ∈ a, c ≠ 0) :
    Arrives doubled doubled' launcher game resolved arguments := by
  intro line hline
  have hcommand : line =
      quote launcher.value ++ quotedArguments (launcherArguments game.value arguments) := by
    unfold processCommandLine at hline
    simp only at hline
    split at hline
    · cases hline
    · rw [← Except.ok.inj hline]
      exact foldl_quote _ _
  have hlauncher : ∀ a ∈ launcherArguments game.value arguments, ∀ c ∈ a, c ≠ 0 := by
    intro a ha c hc
    cases List.mem_append.mp ha with
    | inr hargument => exact h a hargument c hc
    | inl hoption =>
      simp only [List.mem_cons, List.not_mem_nil, or_false] at hoption
      obtain rfl | rfl | rfl | rfl := hoption
      · rintro rfl
        exact absurd hc (by decide : (0 : UInt16) ∉ wide "--offline-only")
      · rintro rfl
        exact absurd hc (by decide : (0 : UInt16) ∉ wide "--game")
      · rintro rfl
        exact game.nulFree hc
      · rintro rfl
        exact absurd hc (by decide : (0 : UInt16) ∉ wide "--")
  obtain ⟨count, hvector, -⟩ := argumentVector_quoted doubled launcher hlauncher
  obtain ⟨count', hgame, hprogram⟩ := argumentVector_quoted doubled' resolved h
  have hloop : optionLoop false {} ((argumentVector doubled line).drop 1) =
      .ok (true, ⟨game.value, arguments⟩) := by
    rw [hcommand, hvector, List.drop_succ_cons, List.drop_zero]
    exact optionLoop_launcherArguments _ _
  have hbuilt : buildCommandLine ⟨resolved.value, arguments⟩ =
      quote resolved.value ++ quotedArguments arguments := foldl_quote _ _
  refine ⟨hloop, ?_, _, hbuilt ▸ hgame, ?_⟩
  · intro hne
    simp only [wmain, hloop]
    simp [hne]
  · intro hlast
    rw [hprogram hlast, List.replicate_zero, List.append_nil]

/-- Every list of arguments without NUL arrives, and so does what the manager makes of a user's text. -/
theorem game_arguments_arrive (doubled doubled' : DoubledQuote) (launcher game resolved : FilePath) :
    (∀ arguments : List WString, (∀ a ∈ arguments, 0 ∉ a) →
      Arrives doubled doubled' launcher game resolved arguments) ∧
    ∀ doubled'' memory text arguments, splitGameArguments doubled'' memory text = .ok arguments →
      Arrives doubled doubled' launcher game resolved arguments := by
  constructor
  · intro arguments h
    refine arrives doubled doubled' launcher game resolved ?_
    rintro a ha c hc rfl
    exact h a ha hc
  · intro doubled'' memory text arguments hsplit
    refine arrives doubled doubled' launcher game resolved ?_
    unfold splitGameArguments at hsplit
    split at hsplit
    · cases hsplit
      exact fun a ha => absurd ha List.not_mem_nil
    · split at hsplit
      · cases hsplit
      · split at hsplit
        · cases hsplit
        · cases hsplit
        · rename_i hvector
          cases hsplit
          unfold commandLineToArgv at hvector
          split at hvector
          · have hnulFree := nulFree_argumentVector doubled'' (wide "ffb-placeholder.exe " ++ text)
            rw [Option.some.inj hvector] at hnulFree
            exact hnulFree
          · cases hvector

def sampleLauncher : FilePath :=
  ⟨wide "C:\\FFB Interceptor\\FFBInterceptor.Launcher.exe", by decide, by decide⟩

def sampleGamePath : FilePath := ⟨wide "D:\\Games\\Race\\race.exe", by decide, by decide⟩

/-- What a user types with a blank and a backslash in quotes arrives as two arguments. -/
theorem typed_arguments_arrive :
    let arguments := [wide "-car", wide "my car\\"]
    splitGameArguments .ordinary true (wide "-car \"my car\\\\\"") = .ok arguments ∧
      ∃ line, processCommandLine sampleLauncher.value
          (launcherArguments sampleGamePath.value arguments) = .ok line ∧
        optionLoop false {} ((argumentVector .ordinary line).drop 1) =
          .ok (true, ⟨sampleGamePath.value, arguments⟩) := by
  have hsplit : splitGameArguments .ordinary true (wide "-car \"my car\\\\\"") =
      .ok [wide "-car", wide "my car\\"] := by decide +kernel
  have hfits : (processCommandLine sampleLauncher.value (launcherArguments sampleGamePath.value
      [wide "-car", wide "my car\\"])).toOption.isSome = true := by decide +kernel
  refine ⟨hsplit, ?_⟩
  cases hline : processCommandLine sampleLauncher.value (launcherArguments sampleGamePath.value
      [wide "-car", wide "my car\\"]) with
  | error error =>
    rw [hline] at hfits
    cases hfits
  | ok line =>
    exact ⟨line, rfl, ((game_arguments_arrive .ordinary .ordinary sampleLauncher sampleGamePath
      sampleGamePath).2 .ordinary true _ _ hsplit line hline).1⟩

end Arrival

end FfbInterceptor.Launcher
