import ConfigIndex.Command.Options
import Mathlib.Data.List.TakeWhile

/-!
Reading flags by their long names, and the two dashes that end all options.
-/

namespace ConfigIndex.Command

structure IsLongName (name : String) : Prop where
  dashes : name.toList.take 2 = ['-', '-']
  more : name ≠ "--"
  bare : '=' ∉ name.toList

theorem readArguments_flag {rules : List OptionRule} {name : String} {rule : OptionRule}
    (long : IsLongName name) (found : rules.find? (·.name == name) = some rule)
    (flag : rule.value = none) (mixed : Bool) (read : Arguments) (rest : List String) :
    readArguments rules mixed read (name :: rest) =
      readArguments rules mixed (read.addOption rule.name "") rest := by
  have taken : name.toList.takeWhile (· ≠ '=') = name.toList := by
    rw [List.takeWhile_eq_self_iff]
    intro c member
    exact decide_eq_true fun same => long.bare (same ▸ member)
  have dropped : name.toList.dropWhile (· ≠ '=') = [] := by
    rw [List.dropWhile_eq_nil_iff]
    intro c member
    exact decide_eq_true fun same => long.bare (same ▸ member)
  obtain ⟨behind, spelled⟩ : ∃ behind, name.toList = '-' :: '-' :: behind :=
    ⟨_, (List.take_append_drop 2 name.toList).symm.trans (by rw [long.dashes]; rfl)⟩
  rw [readArguments]
  simp only [beq_eq_false_iff_ne.mpr long.more, taken, dropped, String.ofList_toList, found, flag]
  rw [spelled]
  rfl

theorem readArguments_dashes (rules : List OptionRule) (mixed : Bool) (read : Arguments)
    (rest : List String) : readArguments rules mixed read ("--" :: rest) =
      .ok { read with others := read.others ++ rest } := by
  rw [readArguments]
  rfl

def chosen (isChosen : Bool) (name : String) : List String := if isChosen then [name] else []

theorem readArguments_chosen {rules : List OptionRule} {name : String} {rule : OptionRule}
    (long : IsLongName name) (found : rules.find? (·.name == name) = some rule)
    (flag : rule.value = none) (isChosen mixed : Bool) (read : Arguments) (rest : List String) :
    readArguments rules mixed read (chosen isChosen name ++ rest) =
      readArguments rules mixed
        { read with options := read.options ++ (chosen isChosen rule.name).map (·, "") } rest := by
  cases isChosen with
  | false => simp [chosen]
  | true => exact readArguments_flag long found flag mixed read rest

end ConfigIndex.Command
