import CallSite.Proofs.CallGraph.Recursion

/-!
# References where they occur

Where an expression occurs is said position by position: in an element, an operand, a callee, an
argument, a default, a condition, a range, a body.  A call by name or a pointer makes an edge of the
call graph from every function in which it occurs, and nothing else does.
-/

namespace CallSite

/-! ## Occurrences -/

mutual

/-- The expression is the other one, or occurs at one of the positions inside it. -/
inductive Expr.OccursIn (part : Expr) : Expr → Prop where
  | here : part.OccursIn part
  | element {position : Position} {elements : List Expr} {element : Expr} :
    element ∈ elements → part.OccursIn element → part.OccursIn (.list position elements)
  | left {position : Position} {operator : BinaryOp} {left right : Expr} :
    part.OccursIn left → part.OccursIn (.binary position operator left right)
  | right {position : Position} {operator : BinaryOp} {left right : Expr} :
    part.OccursIn right → part.OccursIn (.binary position operator left right)
  | operand {position : Position} {operator : UnaryOp} {operand : Expr} :
    part.OccursIn operand → part.OccursIn (.unary position operator operand)
  | callee {position : Position} {callee : Expr} {arguments : List Expr} :
    part.OccursIn callee → part.OccursIn (.call position callee arguments)
  | argument {position : Position} {callee : Expr} {arguments : List Expr} {argument : Expr} :
    argument ∈ arguments → part.OccursIn argument →
      part.OccursIn (.call position callee arguments)
  | indexed {position : Position} {target : Expr} {indices : List Expr} :
    part.OccursIn target → part.OccursIn (.index position target indices)
  | index {position : Position} {target : Expr} {indices : List Expr} {index : Expr} :
    index ∈ indices → part.OccursIn index → part.OccursIn (.index position target indices)
  | default {position : Position} {params : List Param} {body : List Stmt} {name : Identifier}
      {default : Expr} :
    ⟨name, some default⟩ ∈ params → part.OccursIn default →
      part.OccursIn (.lambda position params body)
  | body {position : Position} {params : List Param} {body : List Stmt} {statement : Stmt} :
    statement ∈ body → statement.Holds part → part.OccursIn (.lambda position params body)
  | appended {position : Position} {target : Expr} {values : List Expr} :
    part.OccursIn target → part.OccursIn (.append position target values)
  | value {position : Position} {target : Expr} {values : List Expr} {value : Expr} :
    value ∈ values → part.OccursIn value → part.OccursIn (.append position target values)
  | len {position : Position} {operand : Expr} :
    part.OccursIn operand → part.OccursIn (.len position operand)
  | chop {position : Position} {operand : Expr} :
    part.OccursIn operand → part.OccursIn (.chop position operand)
  | chomp {position : Position} {operand : Expr} :
    part.OccursIn operand → part.OccursIn (.chomp position operand)
  | matched {position : Position} {pattern : String} {argument : Expr} :
    part.OccursIn argument → part.OccursIn (.matching position pattern argument)

/-- The expression occurs in the range. -/
inductive Range.Holds (part : Expr) : Range → Prop where
  | element {values : List Expr} {value : Expr} :
    value ∈ values → part.OccursIn value → Range.Holds part (.elements values)
  | value {operand : Expr} : part.OccursIn operand → Range.Holds part (.value operand)
  | first {first last : Expr} : part.OccursIn first → Range.Holds part (.span first last)
  | last {first last : Expr} : part.OccursIn last → Range.Holds part (.span first last)

/-- The expression occurs in the statement. -/
inductive Stmt.Holds (part : Expr) : Stmt → Prop where
  | expr {position : Position} {value : Expr} :
    part.OccursIn value → Stmt.Holds part (.expr position value)
  | index {position : Position} {target : String} {index value : Expr} {operator : AssignOp} :
    part.OccursIn index → Stmt.Holds part (.assign position target (some index) operator value)
  | assigned {position : Position} {target : String} {index : Option Expr} {value : Expr}
      {operator : AssignOp} :
    part.OccursIn value → Stmt.Holds part (.assign position target index operator value)
  | condition {position : Position} {conditions : List Expr} {condition : Expr}
      {thenBody elseBody : List Stmt} :
    condition ∈ conditions → part.OccursIn condition →
      Stmt.Holds part (.ifElse position conditions thenBody elseBody)
  | thenBranch {position : Position} {conditions : List Expr} {thenBody elseBody : List Stmt}
      {statement : Stmt} :
    statement ∈ thenBody → Stmt.Holds part statement →
      Stmt.Holds part (.ifElse position conditions thenBody elseBody)
  | elseBranch {position : Position} {conditions : List Expr} {thenBody elseBody : List Stmt}
      {statement : Stmt} :
    statement ∈ elseBody → Stmt.Holds part statement →
      Stmt.Holds part (.ifElse position conditions thenBody elseBody)
  | returned {position : Position} {value : Expr} :
    part.OccursIn value → Stmt.Holds part (.ret position (some value))
  | put {position : Position} {value : Expr} :
    part.OccursIn value → Stmt.Holds part (.put position value)
  | target {position : Position} {target value : Expr} :
    part.OccursIn target → Stmt.Holds part (.push position target value)
  | pushed {position : Position} {target value : Expr} :
    part.OccursIn value → Stmt.Holds part (.push position target value)
  | loop {position : Position} {body : List Stmt} {statement : Stmt} :
    statement ∈ body → Stmt.Holds part statement → Stmt.Holds part (.loop position body)
  | range {position : Position} {iterator : String} {range : Range} {body : List Stmt} :
    range.Holds part → Stmt.Holds part (.forEach position iterator range body)
  | each {position : Position} {iterator : String} {range : Range} {body : List Stmt}
      {statement : Stmt} :
    statement ∈ body → Stmt.Holds part statement →
      Stmt.Holds part (.forEach position iterator range body)
  | breakCondition {position : Position} {conditions : List Expr} {condition : Expr} :
    condition ∈ conditions → part.OccursIn condition →
      Stmt.Holds part (.breakWhen position conditions)
  | nextCondition {position : Position} {conditions : List Expr} {condition : Expr} :
    condition ∈ conditions → part.OccursIn condition →
      Stmt.Holds part (.nextWhen position conditions)

end

/-- The expression occurs in the default of a parameter or in the body. -/
def Function.Holds (part : Expr) (function : Function) : Prop :=
  (∃ name default, ⟨name, some default⟩ ∈ function.params ∧ part.OccursIn default) ∨
    ∃ statement ∈ function.body, statement.Holds part

/-! ## Parts are what occurs -/

theorem Expr.partsOfAll_eq_flatMap (expressions : List Expr) :
    Expr.partsOfAll expressions = expressions.flatMap Expr.parts := by
  induction expressions with
  | nil => rfl
  | cons expression expressions ih => rw [Expr.partsOfAll, List.flatMap_cons, ih]

theorem Stmt.partsOfAll_eq_flatMap (statements : List Stmt) :
    Stmt.partsOfAll statements = statements.flatMap Stmt.parts := by
  induction statements with
  | nil => rfl
  | cons statement statements ih => rw [Stmt.partsOfAll, List.flatMap_cons, ih]

theorem Expr.mem_partsOfAll {part whole : Expr} {expressions : List Expr}
    (member : whole ∈ expressions) (occurs : part ∈ whole.parts) :
    part ∈ Expr.partsOfAll expressions := by
  rw [Expr.partsOfAll_eq_flatMap]
  exact List.mem_flatMap_of_mem member occurs

theorem Stmt.mem_partsOfAll {part : Expr} {statement : Stmt} {statements : List Stmt}
    (member : statement ∈ statements) (occurs : part ∈ statement.parts) :
    part ∈ Stmt.partsOfAll statements := by
  rw [Stmt.partsOfAll_eq_flatMap]
  exact List.mem_flatMap_of_mem member occurs

theorem Param.mem_parts {part default : Expr} {name : Identifier} {params : List Param}
    (member : ⟨name, some default⟩ ∈ params) (occurs : part ∈ default.parts) :
    part ∈ Param.parts params := by
  induction params with
  | nil => cases member
  | cons param params ih =>
    rcases List.mem_cons.mp member with rfl | later
    · exact List.mem_append_left _ occurs
    · rcases param with ⟨_, _ | _⟩
      · exact ih later
      · exact List.mem_append_right _ (ih later)

theorem Expr.self_mem_parts (expression : Expr) : expression ∈ expression.parts := by
  cases expression <;> exact List.mem_cons_self

mutual

theorem Expr.OccursIn.mem_parts {part : Expr} : ∀ {whole : Expr},
    part.OccursIn whole → part ∈ whole.parts
  | _, .here => part.self_mem_parts
  | _, .element member occurs => List.mem_cons_of_mem _ (Expr.mem_partsOfAll member occurs.mem_parts)
  | _, .left occurs | _, .callee occurs | _, .indexed occurs | _, .appended occurs =>
    List.mem_cons_of_mem _ (List.mem_append_left _ occurs.mem_parts)
  | _, .right occurs => List.mem_cons_of_mem _ (List.mem_append_right _ occurs.mem_parts)
  | _, .argument member occurs | _, .index member occurs | _, .value member occurs =>
    List.mem_cons_of_mem _
      (List.mem_append_right _ (Expr.mem_partsOfAll member occurs.mem_parts))
  | _, .default member occurs =>
    List.mem_cons_of_mem _ (List.mem_append_left _ (Param.mem_parts member occurs.mem_parts))
  | _, .body member holds =>
    List.mem_cons_of_mem _ (List.mem_append_right _ (Stmt.mem_partsOfAll member holds.mem_parts))
  | _, .operand occurs | _, .len occurs | _, .chop occurs | _, .chomp occurs | _, .matched occurs =>
    List.mem_cons_of_mem _ occurs.mem_parts

theorem Range.Holds.mem_parts {part : Expr} : ∀ {range : Range},
    range.Holds part → part ∈ range.parts
  | _, .element member occurs => Expr.mem_partsOfAll member occurs.mem_parts
  | _, .value occurs => occurs.mem_parts
  | _, .first occurs => List.mem_append_left _ occurs.mem_parts
  | _, .last occurs => List.mem_append_right _ occurs.mem_parts

theorem Stmt.Holds.mem_parts {part : Expr} : ∀ {statement : Stmt},
    statement.Holds part → part ∈ statement.parts
  | _, .expr occurs | _, .put occurs | _, .returned occurs => occurs.mem_parts
  | _, .index occurs | _, .target occurs => List.mem_append_left _ occurs.mem_parts
  | .assign _ _ none _ _, .assigned occurs => occurs.mem_parts
  | .assign _ _ (some _) _ _, .assigned occurs => List.mem_append_right _ occurs.mem_parts
  | _, .pushed occurs => List.mem_append_right _ occurs.mem_parts
  | _, .condition member occurs =>
    List.mem_append_left _ (List.mem_append_left _ (Expr.mem_partsOfAll member occurs.mem_parts))
  | _, .thenBranch member holds =>
    List.mem_append_left _ (List.mem_append_right _ (Stmt.mem_partsOfAll member holds.mem_parts))
  | _, .elseBranch member holds | _, .each member holds =>
    List.mem_append_right _ (Stmt.mem_partsOfAll member holds.mem_parts)
  | _, .loop member holds => Stmt.mem_partsOfAll member holds.mem_parts
  | _, .range holds => List.mem_append_left _ holds.mem_parts
  | _, .breakCondition member occurs | _, .nextCondition member occurs =>
    Expr.mem_partsOfAll member occurs.mem_parts

end

/-- A member of the parts is the whole, or one of the parts inside it. -/
theorem Expr.OccursIn.hereOr {part whole : Expr} {inside : List Expr}
    (occurs : part ∈ whole :: inside) (deeper : part ∈ inside → part.OccursIn whole) :
    part.OccursIn whole := by
  rcases List.mem_cons.mp occurs with rfl | member
  · exact .here
  · exact deeper member

mutual

theorem Expr.occursIn_of_mem_parts {part : Expr} : ∀ whole : Expr,
    part ∈ whole.parts → part.OccursIn whole
  | .var _ _, occurs | .int _ _, occurs | .float _ _, occurs | .bool _ _, occurs
  | .string _ _, occurs | .pointer _ _, occurs => by
    rw [List.mem_singleton.mp occurs]
    exact .here
  | .list _ elements, occurs => .hereOr occurs fun inside => by
    obtain ⟨element, member, occurs⟩ := Expr.exists_occursIn_of_mem_partsOfAll elements inside
    exact .element member occurs
  | .binary _ _ left right, occurs => .hereOr occurs fun inside => by
    rcases List.mem_append.mp inside with inLeft | inRight
    · exact .left (Expr.occursIn_of_mem_parts left inLeft)
    · exact .right (Expr.occursIn_of_mem_parts right inRight)
  | .unary _ _ operand, occurs =>
    .hereOr occurs fun inside => .operand (Expr.occursIn_of_mem_parts operand inside)
  | .call _ callee arguments, occurs => .hereOr occurs fun inside => by
    rcases List.mem_append.mp inside with inCallee | inArguments
    · exact .callee (Expr.occursIn_of_mem_parts callee inCallee)
    · obtain ⟨argument, member, occurs⟩ :=
        Expr.exists_occursIn_of_mem_partsOfAll arguments inArguments
      exact .argument member occurs
  | .index _ target indices, occurs => .hereOr occurs fun inside => by
    rcases List.mem_append.mp inside with inTarget | inIndices
    · exact .indexed (Expr.occursIn_of_mem_parts target inTarget)
    · obtain ⟨index, member, occurs⟩ := Expr.exists_occursIn_of_mem_partsOfAll indices inIndices
      exact .index member occurs
  | .lambda _ params body, occurs => .hereOr occurs fun inside => by
    rcases List.mem_append.mp inside with inDefault | inBody
    · obtain ⟨name, default, member, occurs⟩ :=
        Param.exists_occursIn_of_mem_parts params inDefault
      exact .default member occurs
    · obtain ⟨statement, member, holds⟩ := Stmt.exists_holds_of_mem_partsOfAll body inBody
      exact .body member holds
  | .append _ target values, occurs => .hereOr occurs fun inside => by
    rcases List.mem_append.mp inside with inTarget | inValues
    · exact .appended (Expr.occursIn_of_mem_parts target inTarget)
    · obtain ⟨value, member, occurs⟩ := Expr.exists_occursIn_of_mem_partsOfAll values inValues
      exact .value member occurs
  | .len _ operand, occurs =>
    .hereOr occurs fun inside => .len (Expr.occursIn_of_mem_parts operand inside)
  | .chop _ operand, occurs =>
    .hereOr occurs fun inside => .chop (Expr.occursIn_of_mem_parts operand inside)
  | .chomp _ operand, occurs =>
    .hereOr occurs fun inside => .chomp (Expr.occursIn_of_mem_parts operand inside)
  | .matching _ _ argument, occurs =>
    .hereOr occurs fun inside => .matched (Expr.occursIn_of_mem_parts argument inside)
termination_by structural whole => whole

theorem Expr.exists_occursIn_of_mem_partsOfAll {part : Expr} : ∀ expressions : List Expr,
    part ∈ Expr.partsOfAll expressions → ∃ whole ∈ expressions, part.OccursIn whole
  | [], occurs => absurd occurs List.not_mem_nil
  | expression :: expressions, occurs => by
    rcases List.mem_append.mp occurs with first | later
    · exact ⟨expression, List.mem_cons_self, Expr.occursIn_of_mem_parts expression first⟩
    · obtain ⟨whole, member, occurs⟩ := Expr.exists_occursIn_of_mem_partsOfAll expressions later
      exact ⟨whole, List.mem_cons_of_mem _ member, occurs⟩
termination_by structural expressions => expressions

theorem Param.exists_occursIn_of_mem_parts {part : Expr} : ∀ params : List Param,
    part ∈ Param.parts params → ∃ name default, ⟨name, some default⟩ ∈ params ∧
      part.OccursIn default
  | [], occurs => absurd occurs List.not_mem_nil
  | ⟨name, some default⟩ :: params, occurs => by
    rcases List.mem_append.mp occurs with first | later
    · exact ⟨name, default, List.mem_cons_self, Expr.occursIn_of_mem_parts default first⟩
    · obtain ⟨name, default, member, occurs⟩ := Param.exists_occursIn_of_mem_parts params later
      exact ⟨name, default, List.mem_cons_of_mem _ member, occurs⟩
  | ⟨_, none⟩ :: params, occurs => by
    obtain ⟨name, default, member, occurs⟩ := Param.exists_occursIn_of_mem_parts params occurs
    exact ⟨name, default, List.mem_cons_of_mem _ member, occurs⟩
termination_by structural params => params

theorem Range.holds_of_mem_parts {part : Expr} : ∀ range : Range,
    part ∈ range.parts → range.Holds part
  | .elements values, occurs => by
    obtain ⟨value, member, occurs⟩ := Expr.exists_occursIn_of_mem_partsOfAll values occurs
    exact .element member occurs
  | .value operand, occurs => .value (Expr.occursIn_of_mem_parts operand occurs)
  | .span first last, occurs => by
    rcases List.mem_append.mp occurs with inFirst | inLast
    · exact .first (Expr.occursIn_of_mem_parts first inFirst)
    · exact .last (Expr.occursIn_of_mem_parts last inLast)
termination_by structural range => range

theorem Stmt.holds_of_mem_parts {part : Expr} : ∀ statement : Stmt,
    part ∈ statement.parts → statement.Holds part
  | .expr _ value, occurs => .expr (Expr.occursIn_of_mem_parts value occurs)
  | .put _ value, occurs => .put (Expr.occursIn_of_mem_parts value occurs)
  | .assign _ _ none _ value, occurs => .assigned (Expr.occursIn_of_mem_parts value occurs)
  | .assign _ _ (some index) _ value, occurs => by
    rcases List.mem_append.mp occurs with inIndex | inValue
    · exact .index (Expr.occursIn_of_mem_parts index inIndex)
    · exact .assigned (Expr.occursIn_of_mem_parts value inValue)
  | .ifElse _ conditions thenBody elseBody, occurs => by
    rcases List.mem_append.mp occurs with earlier | inElse
    · rcases List.mem_append.mp earlier with inConditions | inThen
      · obtain ⟨condition, member, occurs⟩ :=
          Expr.exists_occursIn_of_mem_partsOfAll conditions inConditions
        exact .condition member occurs
      · obtain ⟨statement, member, holds⟩ := Stmt.exists_holds_of_mem_partsOfAll thenBody inThen
        exact .thenBranch member holds
    · obtain ⟨statement, member, holds⟩ := Stmt.exists_holds_of_mem_partsOfAll elseBody inElse
      exact .elseBranch member holds
  | .ret _ (some value), occurs => .returned (Expr.occursIn_of_mem_parts value occurs)
  | .ret _ none, occurs => absurd occurs List.not_mem_nil
  | .push _ target value, occurs => by
    rcases List.mem_append.mp occurs with inTarget | inValue
    · exact .target (Expr.occursIn_of_mem_parts target inTarget)
    · exact .pushed (Expr.occursIn_of_mem_parts value inValue)
  | .loop _ body, occurs => by
    obtain ⟨statement, member, holds⟩ := Stmt.exists_holds_of_mem_partsOfAll body occurs
    exact .loop member holds
  | .forEach _ _ range body, occurs => by
    rcases List.mem_append.mp occurs with inRange | inBody
    · exact .range (range.holds_of_mem_parts inRange)
    · obtain ⟨statement, member, holds⟩ := Stmt.exists_holds_of_mem_partsOfAll body inBody
      exact .each member holds
  | .breakWhen _ conditions, occurs => by
    obtain ⟨condition, member, occurs⟩ := Expr.exists_occursIn_of_mem_partsOfAll conditions occurs
    exact .breakCondition member occurs
  | .nextWhen _ conditions, occurs => by
    obtain ⟨condition, member, occurs⟩ := Expr.exists_occursIn_of_mem_partsOfAll conditions occurs
    exact .nextCondition member occurs
termination_by structural statement => statement

theorem Stmt.exists_holds_of_mem_partsOfAll {part : Expr} : ∀ statements : List Stmt,
    part ∈ Stmt.partsOfAll statements → ∃ statement ∈ statements, statement.Holds part
  | [], occurs => absurd occurs List.not_mem_nil
  | statement :: statements, occurs => by
    rcases List.mem_append.mp occurs with first | later
    · exact ⟨statement, List.mem_cons_self, statement.holds_of_mem_parts first⟩
    · obtain ⟨other, member, holds⟩ := Stmt.exists_holds_of_mem_partsOfAll statements later
      exact ⟨other, List.mem_cons_of_mem _ member, holds⟩
termination_by structural statements => statements

end

theorem Function.mem_parts_iff (part : Expr) (function : Function) :
    part ∈ function.parts ↔ function.Holds part := by
  rw [Function.parts, List.mem_append, Function.Holds]
  constructor
  · rintro (inDefault | inBody)
    · exact .inl (Param.exists_occursIn_of_mem_parts function.params inDefault)
    · exact .inr (Stmt.exists_holds_of_mem_partsOfAll function.body inBody)
  · rintro (⟨name, default, member, occurs⟩ | ⟨statement, member, holds⟩)
    · exact .inl (Param.mem_parts member occurs.mem_parts)
    · exact .inr (Stmt.mem_partsOfAll member holds.mem_parts)

/-! ## Edges -/

theorem Expr.target?_eq_some_iff (part : Expr) (name : String) :
    part.target? = some name ↔
      (∃ position place arguments, part = .call position (.var place name) arguments) ∨
        ∃ position, part = .pointer position name := by
  constructor
  · intro found
    unfold Expr.target? at found
    split at found
    · cases found
      exact .inr ⟨_, rfl⟩
    · cases found
      exact .inl ⟨_, _, _, rfl⟩
    · cases found
  · rintro (⟨position, place, arguments, rfl⟩ | ⟨position, rfl⟩) <;> rfl

/-- A call of the name or a pointer to it occurs in the function. -/
def Function.RefersTo (function : Function) (name : String) : Prop :=
  (∃ position place arguments, function.Holds (.call position (.var place name) arguments)) ∨
    ∃ position, function.Holds (.pointer position name)

theorem Function.exists_target_iff (function : Function) (name : String) :
    (∃ part ∈ function.parts, part.target? = some name) ↔ function.RefersTo name := by
  constructor
  · rintro ⟨part, member, found⟩
    have holds := (function.mem_parts_iff part).mp member
    rcases (part.target?_eq_some_iff name).mp found with
      ⟨position, place, arguments, rfl⟩ | ⟨position, rfl⟩
    · exact .inl ⟨position, place, arguments, holds⟩
    · exact .inr ⟨position, holds⟩
  · rintro (⟨position, place, arguments, holds⟩ | ⟨position, holds⟩)
    · exact ⟨_, (function.mem_parts_iff _).mpr holds, rfl⟩
    · exact ⟨_, (function.mem_parts_iff _).mpr holds, rfl⟩

namespace CallGraph

/-- A function adds its own name and names of declared functions. -/
theorem mem_names_ofFunction {declared : List String} {function : Function} {name : String}
    (mentioned : name ∈ (Step.ofFunction declared function).flatMap Step.names) :
    name = function.name.name ∨ name ∈ declared := by
  rw [Step.ofFunction, List.flatMap_cons, List.mem_append] at mentioned
  rcases mentioned with own | inEdge
  · exact .inl (List.mem_singleton.mp own)
  · obtain ⟨step, member, named⟩ := List.mem_flatMap.mp inEdge
    obtain ⟨callee, kept, rfl⟩ := List.mem_map.mp member
    have known := List.contains_iff_mem.mp (List.mem_filter.mp kept).2
    simp only [Step.names, List.mem_cons, List.not_mem_nil, or_false] at named
    rcases named with rfl | rfl
    · exact .inl rfl
    · exact .inr known

theorem mem_nodes_ofProgram_iff (program : Program) (name : String) :
    name ∈ (ofProgram program).nodes ↔ name ∈ program.functionNames := by
  rw [ofProgram_eq_build, nodes_build, List.mem_eraseDups, Step.ofProgram, List.flatMap_assoc,
    List.mem_flatMap]
  constructor
  · rintro ⟨function, member, mentioned⟩
    rcases mem_names_ofFunction mentioned with rfl | known
    · exact List.mem_map_of_mem member
    · exact known
  · intro declared
    obtain ⟨function, member, rfl⟩ := List.mem_map.mp declared
    exact ⟨function, member, List.mem_cons_self⟩

/-- The call graph of a program has the declared names as its nodes, each once.  There is an edge
exactly where the second name is declared and a function of the first name has, in a default or
anywhere in its body, a call of the second name or a pointer to it.  Every callee is a node, and the
callees of a name are listed once each. -/
theorem ofProgram_exact (program : Program) :
    (ofProgram program).nodes.Nodup ∧
    (∀ name, name ∈ (ofProgram program).nodes ↔ name ∈ program.functionNames) ∧
    (∀ caller callee, (ofProgram program).hasEdge caller callee = true ↔
      callee ∈ program.functionNames ∧
        ∃ function ∈ program.functions, function.name.name = caller ∧ function.RefersTo callee) ∧
    (∀ node ∈ (ofProgram program).nodes, ∀ callee ∈ (ofProgram program).callees node,
      callee ∈ (ofProgram program).nodes) ∧
    ∀ name, ((ofProgram program).callees name).Nodup := by
  refine ⟨?_, mem_nodes_ofProgram_iff program, ?_, ?_, ?_⟩
  · rw [ofProgram_eq_build]
    exact nodup_nodes_build _
  · intro caller callee
    refine (refers_ofProgram_iff program caller callee).trans ?_
    simp only [Program.RefersTo, Function.exists_target_iff]
  · intro node _ callee member
    have refers := ((ofProgram program).mem_callees_iff node callee).mp member
    rw [ofProgram_eq_build] at refers ⊢
    exact (mem_nodes_of_refers refers).2
  · intro name
    rw [ofProgram_eq_build]
    exact nodup_callees_build _ name

end CallGraph

end CallSite
