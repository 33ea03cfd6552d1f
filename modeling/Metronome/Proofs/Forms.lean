import Metronome.Script.Statement
import Mathlib.Data.List.Forall2

namespace Metronome.Script

inductive Primary.Written : Primary → Token → Prop where
  | number {value : Numeral} : Written (.literal (.number value)) (.number value)
  | text {value : String} : Written (.literal (.text value)) (.text value)
  | yes : Written (.literal (.bool true)) (.word "true")
  | no : Written (.literal (.bool false)) (.word "false")
  | null : Written (.literal .null) (.word "null")
  | variable {name : String} (free : isReserved name = false) :
      Written (.variable name) (.word name)

inductive Expr.Written : Expr → List Token → Prop where
  | primary {operand : Primary} {token : Token} (only : operand.Written token) :
      Written (.primary operand) [token]
  | binary {left right : Primary} {op : Operator} {first last : Token}
      (left_written : left.Written first) (right_written : right.Written last) :
      Written (.binary left op right) [first, .operator op, last]

def Call.Written (call : Call) (tokens : List Token) : Prop :=
  isReserved call.name = false ∧ ∃ rest, tokens = .word call.name :: rest ∧
    List.Forall₂ (fun token argument => Primary.Written argument token) rest call.arguments

inductive Rhs.Written : Rhs → List Token → Prop where
  | expr {value : Expr} {tokens : List Token} (written : value.Written tokens) :
      Written (.expr value) tokens
  | call {call : Call} {tokens : List Token} (written : call.Written tokens) :
      Written (.call call) (.word "call" :: tokens)

/-- The rows of tokens that make a statement, one form for each keyword. -/
inductive Statement.Written : Statement → List Token → Prop where
  | print {value : Rhs} {tokens : List Token} (written : value.Written tokens) :
      Written (.action (.print value)) (.word "print" :: tokens)
  | set {name : String} {value : Rhs} {tokens : List Token} (free : isReserved name = false)
      (written : value.Written tokens) :
      Written (.action (.set name value)) (.word "set" :: .word name :: .assign :: tokens)
  | call {call : Call} {tokens : List Token} (written : call.Written tokens) :
      Written (.action (.call call)) (.word "call" :: tokens)
  | leave : Written (.action (.ret none)) [.word "return"]
  | ret {value : Rhs} {tokens : List Token} (written : value.Written tokens) :
      Written (.action (.ret (some value))) (.word "return" :: tokens)
  | timeout {callback : String} {delay : Primary} {arguments : List Primary} {token : Token}
      {tokens : List Token} (free : isReserved callback = false) (after : delay.Written token)
      (written : List.Forall₂ (fun token argument => Primary.Written argument token) tokens
        arguments) :
      Written (.action (.timeout callback delay arguments))
        (.word "timeout" :: .word callback :: token :: tokens)
  | poll : Written .poll [.word "poll"]
  | loop {condition : Expr} {tokens : List Token} (written : condition.Written tokens) :
      Written (.opening (.loop condition)) (.word "while" :: tokens)
  | branch {condition : Expr} {tokens : List Token} (written : condition.Written tokens) :
      Written (.opening (.branch condition)) (.word "if" :: tokens)
  | function {name : String} {parameters : List String} (free : isReserved name = false)
      (all_free : ∀ parameter ∈ parameters, isReserved parameter = false) :
      Written (.opening (.function name parameters))
        (.word "func" :: .word name :: parameters.map .word)
  | closing : Written .closing [.word "end"]

def Statement.Fits (context : Context) : Statement → Prop
  | .action (.ret _) => context.inFunction = true
  | .opening (.function name _) => context.atTop = true ∧ context.defined name = false
  | _ => True

theorem bind_eq_ok {ε α β : Type} {first : Except ε α} {rest : α → Except ε β} {result : β} :
    (first >>= rest) = .ok result ↔ ∃ value, first = .ok value ∧ rest value = .ok result := by
  cases first with
  | error fault => exact ⟨nofun, fun ⟨_, same, _⟩ => nomatch same⟩
  | ok value =>
    constructor
    · exact fun reads => ⟨value, rfl, reads⟩
    · rintro ⟨_, ⟨⟩, reads⟩
      exact reads

theorem map_eq_ok {ε α β : Type} {first : Except ε α} {f : α → β} {result : β} :
    first.map f = .ok result ↔ ∃ value, first = .ok value ∧ f value = result := by
  cases first with
  | error fault => exact ⟨nofun, fun ⟨_, same, _⟩ => nomatch same⟩
  | ok value =>
    constructor
    · rintro ⟨⟩
      exact ⟨value, rfl, rfl⟩
    · rintro ⟨_, ⟨⟩, rfl⟩
      rfl

theorem toOption_map_eq_some {ε α β : Type} {result : Except ε α} {f : α → β} {seen : β}
    (same : result.toOption.map f = some seen) : ∃ value, result = .ok value ∧ f value = seen := by
  cases result with
  | error fault => cases same
  | ok value => exact ⟨value, rfl, Option.some.inj same⟩

theorem mapM_eq_ok {ε α β : Type} {f : α → Except ε β} {items : List α} {results : List β} :
    items.mapM f = .ok results ↔ List.Forall₂ (fun item result => f item = .ok result) items results := by
  induction items generalizing results with
  | nil =>
    rw [List.mapM_nil, List.forall₂_nil_left_iff]
    exact ⟨fun same => by cases same; rfl, fun same => by rw [same]; rfl⟩
  | cons item items ih =>
    rw [List.mapM_cons, bind_eq_ok]
    constructor
    · rintro ⟨first, here, later⟩
      obtain ⟨rest, inner, done⟩ := bind_eq_ok.mp later
      cases done
      exact .cons here (ih.mp inner)
    · rintro (_ | ⟨here, later⟩)
      exact ⟨_, here, bind_eq_ok.mpr ⟨_, ih.mpr later, rfl⟩⟩

variable {tokens rest : List Token} {name : String}

theorem ne_of_free {word : String} (free : isReserved name = false)
    (reserved : isReserved word = true) : name ≠ word := by
  rintro rfl
  rw [reserved] at free
  cases free

theorem readName_eq_ok {wanted : Wanted} :
    readName wanted tokens = .ok (name, rest) ↔
      tokens = .word name :: rest ∧ isReserved name = false := by
  constructor
  · intro reads
    unfold readName at reads
    split at reads
    · split at reads
      · cases reads
      · rename_i free
        cases reads
        exact ⟨rfl, by simpa using free⟩
    · cases reads
  · rintro ⟨rfl, free⟩
    rw [readName, if_neg (by simp [free])]

theorem readPrimary_eq_ok {operand : Primary} :
    readPrimary tokens = .ok (operand, rest) ↔
      ∃ token, tokens = token :: rest ∧ operand.Written token := by
  constructor
  · intro reads
    unfold readPrimary at reads
    split at reads
    · cases reads
      exact ⟨_, rfl, .number⟩
    · cases reads
      exact ⟨_, rfl, .text⟩
    · rename_i word _
      split at reads
      · rename_i same
        cases reads
        exact ⟨_, rfl, same ▸ .yes⟩
      split at reads
      · rename_i same
        cases reads
        exact ⟨_, rfl, same ▸ .no⟩
      split at reads
      · rename_i same
        cases reads
        exact ⟨_, rfl, same ▸ .null⟩
      split at reads
      · cases reads
      · rename_i free
        cases reads
        exact ⟨_, rfl, .variable (by simpa using free)⟩
    · cases reads
  · rintro ⟨token, rfl, written⟩
    cases written with
    | «variable» free =>
      rw [readPrimary, if_neg (ne_of_free free (by decide)), if_neg (ne_of_free free (by decide)),
        if_neg (ne_of_free free (by decide)), if_neg (by simp [free])]
    | _ => rfl

theorem primaryOf_eq_ok {token : Token} {operand : Primary} :
    primaryOf token = .ok operand ↔ operand.Written token := by
  rw [primaryOf, map_eq_ok]
  constructor
  · rintro ⟨⟨read, rest⟩, reads, rfl⟩
    obtain ⟨_, ⟨⟩, written⟩ := readPrimary_eq_ok.mp reads
    exact written
  · intro written
    exact ⟨(operand, []), readPrimary_eq_ok.mpr ⟨token, rfl, written⟩, rfl⟩

theorem readArguments_eq_ok {arguments : List Primary} :
    readArguments tokens = .ok arguments ↔
      List.Forall₂ (fun token argument => Primary.Written argument token) tokens arguments := by
  rw [readArguments, mapM_eq_ok]
  simp only [primaryOf_eq_ok]

theorem readCall_eq_ok {call : Call} : readCall tokens = .ok call ↔ call.Written tokens := by
  unfold readCall
  rw [bind_eq_ok]
  constructor
  · rintro ⟨⟨name, rest⟩, named, reads⟩
    obtain ⟨rfl, free⟩ := readName_eq_ok.mp named
    obtain ⟨arguments, inner, done⟩ := bind_eq_ok.mp reads
    cases done
    exact ⟨free, rest, rfl, readArguments_eq_ok.mp inner⟩
  · rintro ⟨free, rest, rfl, written⟩
    exact ⟨(call.name, rest), readName_eq_ok.mpr ⟨rfl, free⟩,
      bind_eq_ok.mpr ⟨call.arguments, readArguments_eq_ok.mpr written, rfl⟩⟩

theorem readEnd_eq_ok {done : Unit} : readEnd tokens = .ok done ↔ tokens = [] := by
  cases tokens <;> simp [readEnd]

theorem readExpr_eq_ok {value : Expr} :
    readExpr tokens = .ok (value, []) ↔ value.Written tokens := by
  unfold readExpr
  rw [bind_eq_ok]
  constructor
  · rintro ⟨⟨left, rest⟩, first, reads⟩
    obtain ⟨token, rfl, written⟩ := readPrimary_eq_ok.mp first
    dsimp only at reads
    split at reads
    · obtain ⟨⟨right, rest⟩, second, done⟩ := bind_eq_ok.mp reads
      obtain ⟨last, rfl, more⟩ := readPrimary_eq_ok.mp second
      cases done
      exact .binary written more
    · cases reads
      exact .primary written
  · intro written
    cases written with
    | @primary operand token only =>
      exact ⟨(operand, []), readPrimary_eq_ok.mpr ⟨token, rfl, only⟩, rfl⟩
    | @binary left right op first last left_written right_written =>
      exact ⟨(left, [.operator op, last]), readPrimary_eq_ok.mpr ⟨first, rfl, left_written⟩,
        bind_eq_ok.mpr ⟨(right, []), readPrimary_eq_ok.mpr ⟨last, rfl, right_written⟩, rfl⟩⟩

theorem Expr.Written.ne_call {value : Expr} (written : value.Written tokens) :
    ∀ rest, tokens ≠ .word "call" :: rest := by
  have operand : ∀ {operand : Primary} {token : Token}, operand.Written token →
      token ≠ .word "call" := by
    intro operand token written
    cases written with
    | @«variable» name free =>
      have other : name ≠ "call" := ne_of_free free (by decide)
      simpa using other
    | _ => simp
  rintro rest rfl
  cases written with
  | primary only => exact operand only rfl
  | binary first => exact operand first rfl

theorem readRhs_eq_ok {value : Rhs} : readRhs tokens = .ok value ↔ value.Written tokens := by
  constructor
  · intro reads
    unfold readRhs at reads
    split at reads
    · obtain ⟨call, inner, done⟩ := bind_eq_ok.mp reads
      cases done
      exact .call (readCall_eq_ok.mp inner)
    · obtain ⟨⟨value, rest⟩, inner, more⟩ := bind_eq_ok.mp reads
      obtain ⟨_, ended, done⟩ := bind_eq_ok.mp more
      cases done
      rw [readEnd_eq_ok] at ended
      subst ended
      exact .expr (readExpr_eq_ok.mp inner)
  · intro written
    cases written with
    | @expr value tokens written =>
      unfold readRhs
      split
      · exact absurd rfl (written.ne_call _)
      · exact bind_eq_ok.mpr ⟨(value, []), readExpr_eq_ok.mpr written, rfl⟩
    | @call call tokens written =>
      exact bind_eq_ok.mpr ⟨call, readCall_eq_ok.mpr written, rfl⟩

theorem readCondition_eq_ok {value : Expr} :
    readCondition tokens = .ok value ↔ value.Written tokens := by
  constructor
  · intro reads
    unfold readCondition at reads
    split at reads
    · cases reads
    · obtain ⟨⟨value, rest⟩, inner, more⟩ := bind_eq_ok.mp reads
      obtain ⟨_, ended, done⟩ := bind_eq_ok.mp more
      cases done
      rw [readEnd_eq_ok] at ended
      subst ended
      exact readExpr_eq_ok.mp inner
  · intro written
    unfold readCondition
    split
    · exact absurd rfl (written.ne_call _)
    · exact bind_eq_ok.mpr ⟨(value, []), readExpr_eq_ok.mpr written, rfl⟩

theorem readAssign_eq_ok {done : Unit} :
    readAssign tokens = .ok (done, rest) ↔ tokens = .assign :: rest := by
  unfold readAssign
  split
  · simp
  · rename_i other
    exact ⟨nofun, fun same => absurd same (other rest)⟩

variable {context : Context} {statement : Statement}

theorem readSet_eq_ok :
    readSet tokens = .ok statement ↔ ∃ name value rest, tokens = .word name :: .assign :: rest ∧
      isReserved name = false ∧ Rhs.Written value rest ∧ statement = .action (.set name value) := by
  unfold readSet
  rw [bind_eq_ok]
  constructor
  · rintro ⟨⟨name, afterName⟩, named, reads⟩
    obtain ⟨rfl, free⟩ := readName_eq_ok.mp named
    obtain ⟨⟨_, afterSign⟩, assigned, reads⟩ := bind_eq_ok.mp reads
    rw [readAssign_eq_ok] at assigned
    obtain ⟨value, inner, done⟩ := bind_eq_ok.mp reads
    cases done
    exact ⟨name, value, afterSign, by rw [assigned], free, readRhs_eq_ok.mp inner, rfl⟩
  · rintro ⟨name, value, rest, rfl, free, written, rfl⟩
    exact ⟨(name, .assign :: rest), readName_eq_ok.mpr ⟨rfl, free⟩,
      bind_eq_ok.mpr ⟨((), rest), readAssign_eq_ok.mpr rfl,
        bind_eq_ok.mpr ⟨value, readRhs_eq_ok.mpr written, rfl⟩⟩⟩

theorem readTimeout_eq_ok :
    readTimeout tokens = .ok statement ↔ ∃ callback delay token arguments rest,
      tokens = .word callback :: token :: rest ∧ isReserved callback = false ∧
        Primary.Written delay token ∧
        List.Forall₂ (fun token argument => Primary.Written argument token) rest arguments ∧
        statement = .action (.timeout callback delay arguments) := by
  unfold readTimeout
  rw [bind_eq_ok]
  constructor
  · rintro ⟨⟨callback, afterName⟩, named, reads⟩
    obtain ⟨rfl, free⟩ := readName_eq_ok.mp named
    obtain ⟨⟨delay, afterDelay⟩, delayed, later⟩ := bind_eq_ok.mp reads
    obtain ⟨token, rfl, after⟩ := readPrimary_eq_ok.mp delayed
    obtain ⟨arguments, inner, done⟩ := bind_eq_ok.mp later
    cases done
    exact ⟨callback, delay, token, arguments, afterDelay, rfl, free, after,
      readArguments_eq_ok.mp inner, rfl⟩
  · rintro ⟨callback, delay, token, arguments, rest, rfl, free, after, written, rfl⟩
    exact ⟨(callback, token :: rest), readName_eq_ok.mpr ⟨rfl, free⟩,
      bind_eq_ok.mpr ⟨(delay, rest), readPrimary_eq_ok.mpr ⟨token, rfl, after⟩,
        bind_eq_ok.mpr ⟨arguments, readArguments_eq_ok.mpr written, rfl⟩⟩⟩

theorem readReturn_eq_ok :
    readReturn context tokens = .ok statement ↔ context.inFunction = true ∧
      (tokens = [] ∧ statement = .action (.ret none) ∨
        ∃ value, Rhs.Written value tokens ∧ statement = .action (.ret (some value))) := by
  unfold readReturn
  cases inside : context.inFunction with
  | false => exact ⟨nofun, fun ⟨same, _⟩ => nomatch same⟩
  | true =>
    cases tokens with
    | nil =>
      constructor
      · rintro ⟨⟩
        exact ⟨rfl, .inl ⟨rfl, rfl⟩⟩
      · rintro ⟨-, ⟨-, rfl⟩ | ⟨value, written, rfl⟩⟩
        · rfl
        · cases written with
          | expr written => cases written
    | cons token rest =>
      change (readRhs (token :: rest) >>= _) = _ ↔ _
      rw [bind_eq_ok]
      constructor
      · rintro ⟨value, inner, done⟩
        cases done
        exact ⟨rfl, .inr ⟨value, readRhs_eq_ok.mp inner, rfl⟩⟩
      · rintro ⟨-, ⟨empty, -⟩ | ⟨value, written, rfl⟩⟩
        · cases empty
        · exact ⟨value, readRhs_eq_ok.mpr written, rfl⟩

theorem readParameters_eq_ok {parameters : List String} :
    (tokens.mapM fun token => (readName .parameterName [token]).map (·.1)) = .ok parameters ↔
      tokens = parameters.map .word ∧ ∀ parameter ∈ parameters, isReserved parameter = false := by
  have one : ∀ token name, (readName .parameterName [token]).map (·.1) = .ok name ↔
      token = .word name ∧ isReserved name = false := by
    intro token name
    rw [map_eq_ok]
    constructor
    · rintro ⟨⟨read, rest⟩, reads, rfl⟩
      obtain ⟨⟨⟩, free⟩ := readName_eq_ok.mp reads
      exact ⟨rfl, free⟩
    · rintro ⟨rfl, free⟩
      exact ⟨(name, []), readName_eq_ok.mpr ⟨rfl, free⟩, rfl⟩
  rw [mapM_eq_ok]
  simp only [one]
  constructor
  · intro words
    induction words with
    | nil => exact ⟨rfl, by simp⟩
    | cons here _ ih => exact ⟨by rw [here.1, ih.1]; rfl, List.forall_mem_cons.mpr ⟨here.2, ih.2⟩⟩
  · rintro ⟨rfl, free⟩
    induction parameters with
    | nil => exact .nil
    | cons parameter parameters ih =>
      exact .cons ⟨rfl, free parameter (by simp)⟩ (ih fun other member => free other (by simp [member]))

theorem readFunction_eq_ok :
    readFunction context tokens = .ok statement ↔ ∃ name parameters,
      tokens = .word name :: parameters.map .word ∧ isReserved name = false ∧
        (∀ parameter ∈ parameters, isReserved parameter = false) ∧
        context.atTop = true ∧ context.defined name = false ∧
        statement = .opening (.function name parameters) := by
  unfold readFunction
  cases top : context.atTop with
  | false => exact ⟨nofun, fun ⟨_, _, _, _, _, same, _⟩ => nomatch same⟩
  | true =>
    change (readName .functionName tokens >>= _) = _ ↔ _
    rw [bind_eq_ok]
    constructor
    · rintro ⟨⟨name, rest⟩, named, reads⟩
      obtain ⟨rfl, free⟩ := readName_eq_ok.mp named
      dsimp only at reads
      split at reads
      · cases reads
      · rename_i fresh
        obtain ⟨parameters, inner, done⟩ := bind_eq_ok.mp reads
        cases done
        obtain ⟨rfl, all_free⟩ := readParameters_eq_ok.mp inner
        exact ⟨name, parameters, rfl, free, all_free, rfl, by simpa using fresh, rfl⟩
    · rintro ⟨name, parameters, rfl, free, all_free, -, fresh, rfl⟩
      refine ⟨(name, parameters.map .word), readName_eq_ok.mpr ⟨rfl, free⟩, ?_⟩
      dsimp only
      rw [if_neg (by simp [fresh])]
      exact bind_eq_ok.mpr ⟨parameters, readParameters_eq_ok.mpr ⟨rfl, all_free⟩, rfl⟩

theorem readStatement_eq_ok {keyword : String} :
    readStatement context keyword tokens = .ok statement ↔
      statement.Written (.word keyword :: tokens) ∧ statement.Fits context := by
  constructor
  · intro reads
    unfold readStatement at reads
    split at reads
    · obtain ⟨value, inner, done⟩ := bind_eq_ok.mp reads
      cases done
      exact ⟨.print (readRhs_eq_ok.mp inner), trivial⟩
    · obtain ⟨name, value, rest, rfl, free, written, rfl⟩ := readSet_eq_ok.mp reads
      exact ⟨.set free written, trivial⟩
    · obtain ⟨call, inner, done⟩ := bind_eq_ok.mp reads
      cases done
      exact ⟨.call (readCall_eq_ok.mp inner), trivial⟩
    · obtain ⟨inside, ⟨rfl, rfl⟩ | ⟨value, written, rfl⟩⟩ := readReturn_eq_ok.mp reads
      · exact ⟨.leave, inside⟩
      · exact ⟨.ret written, inside⟩
    · obtain ⟨callback, delay, token, arguments, rest, rfl, free, after, written, rfl⟩ :=
        readTimeout_eq_ok.mp reads
      exact ⟨.timeout free after written, trivial⟩
    · obtain ⟨_, ended, done⟩ := bind_eq_ok.mp reads
      cases done
      rw [readEnd_eq_ok] at ended
      exact ⟨ended ▸ .poll, trivial⟩
    · obtain ⟨condition, inner, done⟩ := bind_eq_ok.mp reads
      cases done
      exact ⟨.loop (readCondition_eq_ok.mp inner), trivial⟩
    · obtain ⟨condition, inner, done⟩ := bind_eq_ok.mp reads
      cases done
      exact ⟨.branch (readCondition_eq_ok.mp inner), trivial⟩
    · obtain ⟨name, parameters, rfl, free, all_free, top, fresh, rfl⟩ :=
        readFunction_eq_ok.mp reads
      exact ⟨.function free all_free, top, fresh⟩
    · obtain ⟨_, ended, done⟩ := bind_eq_ok.mp reads
      cases done
      rw [readEnd_eq_ok] at ended
      exact ⟨ended ▸ .closing, trivial⟩
    · cases reads
  · rintro ⟨written, fits⟩
    cases written with
    | print written => exact bind_eq_ok.mpr ⟨_, readRhs_eq_ok.mpr written, rfl⟩
    | set free written => exact readSet_eq_ok.mpr ⟨_, _, _, rfl, free, written, rfl⟩
    | call written => exact bind_eq_ok.mpr ⟨_, readCall_eq_ok.mpr written, rfl⟩
    | leave => exact readReturn_eq_ok.mpr ⟨fits, .inl ⟨rfl, rfl⟩⟩
    | ret written => exact readReturn_eq_ok.mpr ⟨fits, .inr ⟨_, written, rfl⟩⟩
    | timeout free after written =>
      exact readTimeout_eq_ok.mpr ⟨_, _, _, _, _, rfl, free, after, written, rfl⟩
    | poll => rfl
    | loop written => exact bind_eq_ok.mpr ⟨_, readCondition_eq_ok.mpr written, rfl⟩
    | branch written => exact bind_eq_ok.mpr ⟨_, readCondition_eq_ok.mpr written, rfl⟩
    | function free all_free =>
      exact readFunction_eq_ok.mpr ⟨_, _, rfl, free, all_free, fits.1, fits.2, rfl⟩
    | closing => rfl

/-- Reading accepts the forms of statements, each in the places where it may stand, and nothing else. -/
theorem ofTokens_eq_ok {context : Context} {statement : Statement} :
    Statement.ofTokens context tokens = .ok statement ↔
      statement.Written tokens ∧ statement.Fits context := by
  unfold Statement.ofTokens
  split
  · exact readStatement_eq_ok
  · rename_i noWord
    refine ⟨nofun, fun ⟨written, _⟩ => ?_⟩
    cases written <;> exact absurd rfl (noWord _ _)

end Metronome.Script
