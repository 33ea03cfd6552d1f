import Metronome.Proofs.Shift

namespace Metronome

namespace Native

def Plain {α : Type} : Native α → Prop
  | done _ => True
  | nextCallback _ => False
  | giveBack _ _ => False
  | setTimeout _ _ rest => rest.Plain
  | output _ rest => rest.Plain

end Native

namespace Script.Machine

theorem complete_plain (m : Machine) (place : Place) (action : Action) (value : Value) :
    (m.complete place action value).Plain := by
  cases action <;> trivial

theorem runSimple_plain (m : Machine) (place : Place) (action : Action) :
    (m.runSimple place action).Plain := by
  unfold runSimple
  dsimp only
  split
  case h_4 =>
    split
    · trivial
    · exact complete_plain _ _ _ _
  case h_5 => exact complete_plain _ _ _ _
  all_goals
    split
    · trivial
    · exact complete_plain _ _ _ _

theorem runAction_plain (m : Machine) (place : Place) (action : Action) :
    (m.runAction place action).Plain := by
  unfold runAction
  split
  · exact runSimple_plain _ _ _
  · dsimp only
    split <;> trivial

theorem step_polling {m : Machine} {place : Place} {phase : Phase} {below : List Frame}
    (stack : m.stack = .poll place phase :: below) (unfinished : phase ≠ .done) :
    m.step = .nextCallback fun
      | none => .done (succeed { m with stack := .poll place .done :: below })
      | some callback =>
        .done (push { m with stack := .poll place .waiting :: below }
          (.call callback.name none (.ready callback.arguments))) := by
  rw [step, stack]
  dsimp only
  rw [if_neg (by simpa [Frame.isDone] using unfinished)]
  rfl

theorem step_taking {m : Machine} {name : String} {offset : Option Nat} {value : Value}
    {place : Place} {below : List Frame}
    (stack : m.stack = .call name offset (.returned value) :: .poll place .waiting :: below) :
    m.step = .giveBack value (.done (push { m with stack := below } (.poll place .done))) := by
  rw [step, stack]
  rfl

/-- What a step asks for: nothing of callbacks, a callback, or that the value of one be taken. -/
inductive Asks (m : Machine) : Prop where
  | nothing (plain : m.step.Plain)
  | callback {place : Place} {phase : Phase} {below : List Frame}
      (stack : m.stack = .poll place phase :: below) (unfinished : phase ≠ .done)
  | taking {name : String} {offset : Option Nat} {value : Value} {place : Place}
      {below : List Frame}
      (stack : m.stack = .call name offset (.returned value) :: .poll place .waiting :: below)

theorem asks (m : Machine) : m.Asks := by
  cases stack : m.stack with
  | nil =>
    refine .nothing ?_
    rw [step, stack]
    trivial
  | cons frame below =>
    have steps : m.step = if frame.isDone then finish { m with stack := below } frame
        else advance { m with stack := below } frame := by
      rw [step, stack]
    cases finished : frame.isDone with
    | true =>
      rw [if_pos finished] at steps
      -- Of what is finished only a call that a poll waits for gives a value back.
      cases frame with
      | call name offset state =>
        cases state with
        | returned value =>
          change m.step = finishCall { m with stack := below } value at steps
          unfold finishCall at steps
          split at steps
          · exact .nothing (steps ▸ complete_plain _ _ _ _)
          · rename_i place rest waits
            change below = _ at waits
            exact .taking (waits ▸ stack)
          · exact .nothing (steps ▸ trivial)
        | _ => cases finished
      | _ => exact .nothing (steps ▸ trivial)
    | false =>
      rw [if_neg (by simp [finished])] at steps
      cases frame with
      | poll place phase => exact .callback stack (by simpa [Frame.isDone] using finished)
      | action => exact .nothing (steps ▸ runAction_plain _ _ _)
      | block rest origin => cases rest <;> exact .nothing (steps ▸ trivial)
      | branch place condition body phase => cases phase <;> exact .nothing (steps ▸ trivial)
      | call name offset state => cases state <;> exact .nothing (steps ▸ trivial)
      | loop => exact .nothing (steps ▸ trivial)

end Script.Machine

end Metronome
