import Mathlib
import FermiQuiz.Proofs.Command.Arguments

/-!
# Arguments that choose a game

Arguments that choose a game for one command choose the same game for another, after whatever that
command is told of its own.
-/

namespace FermiQuiz

open Number (isPositive naturalText)

namespace Arguments

variable {shape shape' : Shape} {awaiting next : Awaiting} {a b c before : Arguments}
  {name : String} {attached : Option String} {arguments : List String}

/-! ### What reading leaves as it was -/

/-- Flags stay, and a name gets a value only if it is an option. -/
structure Kept (shape : Shape) (a b : Arguments) : Prop where
  flags : a.flags ⊆ b.flags
  values : ∀ name, name ∉ shape.options → b.value? name = a.value? name

theorem Kept.refl (shape : Shape) (a : Arguments) : Kept shape a a :=
  ⟨List.Subset.refl _, fun _ _ => rfl⟩

theorem Kept.trans (first : Kept shape a b) (second : Kept shape b c) : Kept shape a c :=
  ⟨List.Subset.trans first.flags second.flags, fun name other => by
    rw [second.values name other, first.values name other]⟩

theorem kept_value {option : String} (known : option ∈ shape.options) (a : Arguments) (v : String) :
    Kept shape a { a with values := (option, v) :: a.values } := by
  refine ⟨List.Subset.refl _, fun name other => ?_⟩
  have apart : name ≠ option := by
    rintro rfl
    exact other known
  simp only [value?, List.lookup_cons, beq_eq_false_iff_ne.mpr apart]

/-- If a value is awaited, it is that of an option. -/
def Awaiting.IsOf (shape : Shape) : Awaiting → Prop
  | .value option => option ∈ shape.options
  | _ => True

theorem kept_addNamed (added : addNamed shape a name attached = some (next, b)) :
    Kept shape a b ∧ next.IsOf shape := by
  unfold addNamed at added
  split_ifs at added with flag repeated option
  · cases added
    exact ⟨⟨List.subset_cons_self name a.flags, fun _ _ => rfl⟩, trivial⟩
  · have known : name ∈ shape.options := List.contains_iff_mem.mp option
    split at added
    · cases added
      exact ⟨kept_value known a _, trivial⟩
    · cases added
      exact ⟨.refl shape _, known⟩

theorem kept_addPlain (known : awaiting.IsOf shape) (a : Arguments) (argument : String) :
    Kept shape a (addPlain awaiting a argument) := by
  cases awaiting with
  | value option => exact kept_value known a argument
  | any => exact ⟨List.Subset.refl _, fun _ _ => rfl⟩
  | operands => exact ⟨List.Subset.refl _, fun _ _ => rfl⟩

theorem kept_readFrom? (known : awaiting.IsOf shape)
    (read : readFrom? shape awaiting a arguments = some b) : Kept shape a b := by
  fun_induction readFrom? shape awaiting a arguments with
  | case1 | case3 | case7 | case9 | case11 => cases read
  | case2 =>
    cases read
    exact .refl shape _
  | case4 a argument rest ih => exact (kept_addPlain known a argument).trans (ih trivial read)
  | case5 a argument rest kind notOperands ih => exact ih trivial read
  | case6 a argument rest name attached kind next c added notOperands ih =>
    obtain ⟨kept, known⟩ := kept_addNamed added
    exact kept.trans (ih known read)
  | case8 a argument rest body awaiting kind numeric notOperands ih =>
    exact (kept_addPlain known a argument).trans (ih trivial read)
  | case10 a argument rest awaiting kind notOperands ih =>
    exact (kept_addPlain known a argument).trans (ih trivial read)

/-! ### Arguments after others -/

/-- What was read, next to what was read before it. -/
def after (a before : Arguments) : Arguments where
  values := a.values ++ before.values
  flags := a.flags ++ before.flags
  operands := before.operands ++ a.operands

theorem value?_after (a before : Arguments) (name : String) :
    (a.after before).value? name = (a.value? name).or (before.value? name) :=
  List.lookup_append

theorem hasFlag_after (a before : Arguments) (name : String) :
    (a.after before).hasFlag name = (a.hasFlag name || before.hasFlag name) := by
  simp only [hasFlag, after, List.contains_eq_mem, List.mem_append, Bool.decide_or]

theorem empty_after (before : Arguments) : ({} : Arguments).after before = before := by
  simp only [after, List.nil_append, List.append_nil]

theorem addPlain_after (awaiting : Awaiting) (argument : String) :
    addPlain awaiting (a.after before) argument = (addPlain awaiting a argument).after before := by
  cases awaiting <;> simp only [addPlain, addOperand, after, List.cons_append, List.append_assoc]

/-- A shape that takes what another one takes after what was read before: its options mean the same
there, and none of them has been given. -/
structure Covers (shape' shape : Shape) (before : Arguments) : Prop where
  options : ∀ name ∈ shape.options,
    name ∈ shape'.options ∧ name ∉ shape'.flags ∧ before.value? name = none
  operands : shape'.operands = before.operands.length + shape.operands
  negatives : shape.takesNegatives = false

/-- An option that is no flag is taken as it was. -/
theorem addNamed_after (covers : Covers shape' shape before)
    (added : addNamed shape a name attached = some (next, b))
    (unflagged : ∀ flag ∈ shape.flags, flag ∉ b.flags) :
    addNamed shape' (a.after before) name attached = some (next, b.after before) := by
  unfold addNamed at added
  split_ifs at added with flag repeated option given
  · cases added
    exact absurd List.mem_cons_self (unflagged name (List.contains_iff_mem.mp flag))
  · obtain ⟨known, noFlag, fresh⟩ := covers.options name (List.contains_iff_mem.mp option)
    have missing : ((a.after before).value? name).isSome = false := by
      rw [value?_after, fresh, Option.or_none]
      exact Bool.eq_false_of_not_eq_true given
    unfold addNamed
    rw [if_neg (by simpa using noFlag), if_pos (by simpa using known),
      if_neg (by rw [missing]; exact Bool.false_ne_true)]
    split at added <;> cases added <;> rfl

/-- Arguments without flags are read as they were after others, for whatever is asked of these. -/
theorem readFrom?_after (covers : Covers shape' shape before)
    (read : readFrom? shape awaiting a arguments = some b)
    (unflagged : ∀ flag ∈ shape.flags, flag ∉ b.flags) :
    readFrom? shape' awaiting (a.after before) arguments = some (b.after before) := by
  fun_induction readFrom? shape awaiting a arguments with
  | case1 | case3 | case7 | case9 | case11 => cases read
  | case2 awaiting a noValue complete =>
    cases read
    have complete' : (b.after before).operands.length = shape'.operands := by
      rw [covers.operands, ← complete, after, List.length_append]
    rw [readFrom?, if_pos complete']
    exact noValue
  | case4 a argument rest ih =>
    have moved : (a.after before).addOperand argument = (a.addOperand argument).after before :=
      addPlain_after .any argument
    rw [readFrom?, moved]
    exact ih read
  | case5 a argument rest kind notOperands ih =>
    simp only [readFrom?, kind]
    exact ih read
  | case6 a argument rest name attached kind next c added notOperands ih =>
    -- A flag that was met would still be there in the end.
    have unflagged' : ∀ flag ∈ shape.flags, flag ∉ c.flags := fun flag known member =>
      unflagged flag known ((kept_readFrom? (kept_addNamed added).2 read).flags member)
    simp only [readFrom?, kind, addNamed_after covers added unflagged']
    exact ih read
  | case8 a argument rest body awaiting kind numeric notOperands ih =>
    rw [covers.negatives] at numeric
    cases numeric
  | case10 a argument rest awaiting kind notOperands ih =>
    cases awaiting with
    | operands => exact absurd rfl notOperands
    | any =>
      simp only [readFrom?, kind, addPlain_after]
      exact ih read
    | value option =>
      simp only [readFrom?, kind, addPlain_after]
      exact ih read

end Arguments

namespace Command

variable {flags : List String} {choice : GameChoice}

theorem gameChoice?_congr {a b : Arguments}
    (same : ∀ name ∈ gameOptions, a.value? name = b.value? name) :
    gameChoice? a = gameChoice? b := by
  unfold gameChoice?
  rw [same "date" (by decide), same "seed" (by decide), same "dataset" (by decide),
    same "config" (by decide)]

theorem attempt?_naturalText (attempt : UInt32) :
    attempt? (naturalText attempt.toNat) = some attempt := by
  unfold attempt?
  split
  · next ds minus =>
    have head := Number.head_naturalText_ne_minus attempt.toNat
    rw [minus] at head
    exact absurd rfl head
  · rw [Number.readNat?_naturalText attempt.toNat_lt, Option.map_some, Nat.toUInt32_eq,
      UInt32.ofNat_toNat]

/-- The shape of a game that is shown. -/
def dailyShape : Shape where
  options := gameOptions
  flags := ["reveal", "json"]

/-- What chooses a game that is shown chooses it after anything else that a shape takes. -/
theorem exists_readFrom?_after {shape' : Shape} {before : Arguments}
    (covers : Arguments.Covers shape' dailyShape before)
    (known : read? ("daily" :: flags) = some (.daily choice false false)) :
    ∃ a : Arguments, Arguments.readFrom? shape' .any before flags = some (a.after before) ∧
      gameChoice? (a.after before) = some choice ∧ a.value? "attempt" = none ∧
      a.hasFlag "reveal" = false ∧ a.hasFlag "json" = false := by
  obtain ⟨a, read, answered⟩ := Option.bind_eq_some_iff.mp known
  obtain ⟨choice', chosen, same⟩ := Option.bind_eq_some_iff.mp answered
  injection same with same
  injection same with same shown json
  subst same
  have unflagged : ∀ flag ∈ dailyShape.flags, flag ∉ a.flags := by
    intro flag member listed
    rcases List.mem_pair.mp member with rfl | rfl
    · exact absurd (List.contains_iff_mem.mpr listed) (Bool.eq_false_iff.mp shown)
    · exact absurd (List.contains_iff_mem.mpr listed) (Bool.eq_false_iff.mp json)
  have after := Arguments.readFrom?_after covers read unflagged
  rw [Arguments.empty_after] at after
  refine ⟨a, after, ?_, ?_, shown, json⟩
  · rw [← chosen]
    refine gameChoice?_congr fun name member => ?_
    rw [Arguments.value?_after, (covers.options name member).2.2, Option.or_none]
  · have nothing : Arguments.Awaiting.any.IsOf dailyShape := trivial
    exact (Arguments.kept_readFrom? nothing read).values "attempt" (by decide)

/-! ### Lines that ask for the same game -/

theorem covers_flag (flag : String) :
    Arguments.Covers dailyShape dailyShape { flags := [flag] } := by
  have apart : ∀ name ∈ gameOptions, name ∉ dailyShape.flags := by decide
  exact ⟨fun name option => ⟨option, apart name option, rfl⟩, rfl, rfl⟩

theorem read?_daily_flag (known : read? ("daily" :: flags) = some (.daily choice false false))
    {argument flag : String} (named : Arguments.kindOf argument = .named flag none)
    (member : flag ∈ dailyShape.flags) :
    read? ("daily" :: argument :: flags) =
      some (.daily choice (flag == "reveal") (flag == "json")) := by
  obtain ⟨a, following, chosen, -, shown, json⟩ := exists_readFrom?_after (covers_flag flag) known
  have added : Arguments.addNamed dailyShape {} flag none = some (.any, { flags := [flag] }) := by
    rcases List.mem_pair.mp member with rfl | rfl <;> rfl
  have arguments : Arguments.read? dailyShape (argument :: flags) =
      some (a.after { flags := [flag] }) := by
    simp only [Arguments.read?, Arguments.readFrom?, named, added]
    exact following
  change ((Arguments.read? dailyShape _).bind _) = _
  rw [arguments, Option.bind_some]
  change ((gameChoice? _).bind _) = _
  rw [chosen, Option.bind_some, Arguments.hasFlag_after, Arguments.hasFlag_after, shown, json]
  rcases List.mem_pair.mp member with rfl | rfl <;> rfl

/-- A guess and its attempt, without a game. -/
def guessed (number : String) (attempt : UInt32) : Arguments where
  values := [("attempt", naturalText attempt.toNat)]
  operands := [number]

theorem covers_guessed (number : String) (attempt : UInt32) :
    Arguments.Covers guessShape dailyShape (guessed number attempt) := by
  have apart : ∀ name ∈ gameOptions,
      name ∈ guessShape.options ∧ name ∉ guessShape.flags ∧ name ≠ "attempt" := by decide
  refine ⟨fun name option => ?_, rfl, rfl⟩
  obtain ⟨known, noFlag, other⟩ := apart name option
  refine ⟨known, noFlag, ?_⟩
  simp only [guessed, Arguments.value?, List.lookup_cons, beq_eq_false_iff_ne.mpr other,
    List.lookup_nil]

theorem read?_guess (known : read? ("daily" :: flags) = some (.daily choice false false))
    {number : String} {x : Float} (read : Number.read? number = some x)
    (positive : isPositive x = true) (attempt : UInt32) :
    read? ("guess" :: number :: "--attempt" :: naturalText attempt.toNat :: flags) =
      some (.guess x attempt choice false) := by
  obtain ⟨a, following, chosen, unset, -, json⟩ :=
    exists_readFrom?_after (covers_guessed number attempt) known
  have plain := Arguments.kindOf_of_head (Number.head_ne_minus_of_read? read positive)
  have plain' : Arguments.kindOf (naturalText attempt.toNat) = .plain :=
    Arguments.kindOf_of_head (Number.head_naturalText_ne_minus _)
  have named : Arguments.kindOf "--attempt" = .named "attempt" none := rfl
  have added : Arguments.addNamed guessShape (Arguments.addPlain .any {} number) "attempt" none =
      some (.value "attempt", { operands := [number] }) := rfl
  have arguments : Arguments.read? guessShape
      (number :: "--attempt" :: naturalText attempt.toNat :: flags) =
        some (a.after (guessed number attempt)) := by
    simp only [Arguments.read?, Arguments.readFrom?, plain, named, plain', added]
    exact following
  have counted : (a.after (guessed number attempt)).value? "attempt" =
      some (naturalText attempt.toNat) := by
    rw [Arguments.value?_after, unset]
    rfl
  change ((Arguments.read? guessShape _).bind _) = _
  rw [arguments, Option.bind_some]
  change ((Number.read? number).bind _) = _
  rw [read, Option.bind_some, counted, optional?, attempt?_naturalText]
  change ((gameChoice? _).bind _) = _
  rw [chosen, Option.bind_some, Arguments.hasFlag_after, json]
  rfl

end Command

end FermiQuiz
