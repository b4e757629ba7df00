import Adventure.Proofs.Placement
import Adventure.Proofs.Positions

/-!
Shifting. A text that follows whole lines is lexed as it would be by itself, with every line number raised
by as much. Blanks before it make no difference to its other tokens.
-/

namespace Adventure

/-! ## Data whose spans stay -/

mutual

theorem Expr.respanned_id : (value : Expr) → value.respanned id = value
  | .atom leaf => rfl
  | .unary head operand => congrArg (Expr.unary head) (respanned_id operand)
  | .binary head left right =>
      congrArg₂ (Expr.binary head) (respanned_id left) (respanned_id right)
  | .ternary head condition thenValue elseValue => by
      simp only [respanned, respanned_id condition, respanned_id thenValue, respanned_id elseValue]
      rfl
  | .call head callee arguments =>
      congrArg₂ (Expr.call head) (respanned_id callee) (respannedAll_id arguments)
  | .methodCall head object member arguments => by
      simp only [respanned, respanned_id object, respanned_id member, respannedAll_id arguments]
      rfl

theorem Expr.respannedAll_id : (values : List Expr) → Expr.respannedAll id values = values
  | [] => rfl
  | value :: others => congrArg₂ List.cons (respanned_id value) (respannedAll_id others)

end

def Unmoved (α : Type) [Spanned α] : Prop := ∀ value : α, respan id value = value

namespace Unmoved

variable {α : Type} [Spanned α]

theorem list (each : Unmoved α) : Unmoved (List α) := by
  intro values
  exact (List.map_congr_left fun value _ => each value).trans (List.map_id values)

theorem option (each : Unmoved α) : Unmoved (Option α) := by
  intro value?
  cases value? with
  | none => rfl
  | some value => exact congrArg some (each value)

theorem expression : Unmoved Expr := Expr.respanned_id

theorem initializer : Unmoved Initializer := by
  intro made
  cases made with
  | expression value => exact congrArg Initializer.expression (expression value)
  | list items => exact congrArg Initializer.list (expression.list items)

theorem declarator : Unmoved Declarator := by
  intro made
  obtain ⟨name, isArray, size?, initializer?⟩ := made
  exact congrArg₂ (Declarator.mk name isArray) (expression.option size?) (initializer.option initializer?)

end Unmoved

mutual

theorem Stmt.respanned_id : (statement : Stmt) → statement.respanned id = statement
  | .expression value => congrArg Stmt.expression (Unmoved.expression value)
  | .function head returnType parameters body =>
      congrArg₂ (Stmt.function head returnType) (Unmoved.list (fun _ => rfl) parameters)
        (respannedAll_id body)
  | .classDefinition head isAbstract superclass? body =>
      congrArg₂ (Stmt.classDefinition head isAbstract) (Unmoved.option (fun _ => rfl) superclass?)
        (respannedAll_id body)
  | .verb head word action flags => rfl
  | .declaration head valueType declarators =>
      congrArg (Stmt.declaration head valueType) (Unmoved.declarator.list declarators)
  | .block head body => congrArg (Stmt.block head) (respannedAll_id body)
  | .returning head value? => congrArg (Stmt.returning head) (Unmoved.expression.option value?)
  | .guarded head subject body =>
      congrArg₂ (Stmt.guarded head) (Unmoved.expression subject) (respannedAll_id body)
  | .doWhile head body condition =>
      congrArg₂ (Stmt.doWhile head) (respannedAll_id body) (Unmoved.expression condition)
  | .ifElse head condition thenBody elseBody? => by
      simp only [respanned, Unmoved.expression condition, respannedAll_id thenBody,
        respannedElse_id elseBody?]
      rfl
  | .forLoop head first? condition? step? body => by
      simp only [respanned, Unmoved.expression.option first?, Unmoved.expression.option condition?,
        Unmoved.expression.option step?, respannedAll_id body]
      rfl
  | .caseLabel head value => congrArg (Stmt.caseLabel head) (Unmoved.expression value)
  | .bare head => rfl

theorem Stmt.respannedAll_id : (statements : List Stmt) → Stmt.respannedAll id statements = statements
  | [] => rfl
  | statement :: others => congrArg₂ List.cons (respanned_id statement) (respannedAll_id others)

theorem Stmt.respannedElse_id : (body? : Option (List Stmt)) → Stmt.respannedElse id body? = body?
  | none => rfl
  | some body => congrArg some (respannedAll_id body)

end

theorem Unmoved.document : Unmoved Document := by
  intro document
  have scope : Unmoved Scope := by
    intro scope
    have same := Unmoved.list (fun _ => rfl) scope.definitions
    exact congrArg (fun definitions => { scope with definitions }) same
  have scopes : respan id document.scopes = document.scopes := by
    have same : document.scopes.scopes.map (respan id) = document.scopes.scopes := by
      rw [funext scope]
      exact Array.map_id _
    exact congrArg (fun scopes => { document.scopes with scopes }) same
  obtain ⟨statements, tree, occurrences, diagnostics, imports⟩ := document
  have read : respan id statements = statements := Unmoved.list Stmt.respanned_id statements
  have noted : respan id occurrences = occurrences := Unmoved.list (fun _ => rfl) occurrences
  have reported : respan id diagnostics = diagnostics := Unmoved.list (fun _ => rfl) diagnostics
  change Document.mk _ _ _ _ imports = _
  rw [read, noted, reported]
  exact congrArg (Document.mk statements · occurrences diagnostics imports) scopes

/-! ## Lexing further down -/

namespace Position

def down (lines : Nat) (position : Position) : Position := ⟨position.line + lines, position.character⟩

theorem after_down (lines : Nat) (position : Position) (c : Char) :
    (position.down lines).after c = (position.after c).down lines := by
  by_cases newline : c = '\n'
  · simp [after, down, newline, Nat.add_right_comm]
  · simp [after, down, newline]

theorem afterAll_down (lines : Nat) (position : Position) (text : List Char) :
    (position.down lines).afterAll text = (position.afterAll text).down lines := by
  induction text generalizing position with
  | nil => rfl
  | cons c text ih => rw [afterAll_cons, afterAll_cons, after_down, ih]

theorem line_afterAll (position : Position) (text : List Char) :
    (position.afterAll text).line = position.line + text.count '\n' := by
  induction text generalizing position with
  | nil => rfl
  | cons c text ih =>
      rw [afterAll_cons, ih]
      by_cases newline : c = '\n'
      · subst newline
        rw [List.count_cons_self]
        simp only [after, if_true]
        omega
      · rw [List.count_cons_of_ne newline]
        simp only [after, newline, if_false]

theorem afterAll_newline (text : List Char) :
    ({} : Position).afterAll (text ++ ['\n']) = ({} : Position).down (text.count '\n' + 1) := by
  have line := line_afterAll {} text
  rw [afterAll_append]
  simp only [afterAll_cons, afterAll_nil, after, if_true, line, down]
  congr 1

end Position

def Span.down (lines : Nat) (span : Span) : Span := ⟨span.start.down lines, span.stop.down lines⟩

namespace Cursor

open Token

def visible (cursor : Cursor) : List Token := cursor.readAll.1.filter (·.kind != .whitespace)

theorem next?_down (lines : Nat) (rest : List Char) (position : Position) :
    (Cursor.mk rest (position.down lines)).next? =
      (Cursor.mk rest position).next?.map fun read =>
        (respan (Span.down lines) read.1, { read.2 with position := read.2.position.down lines }) := by
  unfold next?
  split
  · rfl
  · simp only [Position.afterAll_down, Option.map_some]
    rfl

theorem readAll_down (lines : Nat) (cursor : Cursor) :
    (Cursor.mk cursor.rest (cursor.position.down lines)).readAll.1 =
      respan (Span.down lines) cursor.readAll.1 := by
  induction length : cursor.rest.length using Nat.strongRecOn generalizing cursor with
  | ind length ih =>
      have moved := next?_down lines cursor.rest cursor.position
      rcases cursor.readAll_cases with ⟨none, finished⟩ | ⟨token, after, read, more⟩
      · rw [none, finished]
        rfl
      · have fewer := next?_rest_lt read
        rw [read] at moved
        rw [more, readAll_of_next? moved, ih _ (length ▸ fewer) after rfl]
        rfl

theorem visible_down (lines : Nat) (cursor : Cursor) :
    (Cursor.mk cursor.rest (cursor.position.down lines)).visible =
      respan (Span.down lines) cursor.visible := by
  unfold visible
  rw [readAll_down, Spanned.respan_list, List.filter_map]
  rfl

theorem visible_dropWhile (text : List Char) (position : Position) :
    (Cursor.mk text position).visible =
      (Cursor.mk (text.dropWhile isSpace) (position.afterAll (text.takeWhile isSpace))).visible := by
  cases text with
  | nil => rfl
  | cons c rest =>
      by_cases space : isSpace c = true
      · have whole := @List.takeWhile_append_dropWhile _ isSpace rest
        have taken : (c :: rest).take (runLength isSpace rest + 1) = c :: rest.takeWhile isSpace := by
          rw [List.take_succ_cons, take_runLength]
        have dropped : (c :: rest).drop (runLength isSpace rest + 1) = rest.dropWhile isSpace := by
          rw [List.drop_succ_cons, runLength]
          nth_rewrite 2 [← whole]
          exact List.drop_left
        have read : (Cursor.mk (c :: rest) position).next? =
            some (⟨.whitespace, String.ofList (c :: rest.takeWhile isSpace),
                ⟨position, position.afterAll (c :: rest.takeWhile isSpace)⟩⟩,
              ⟨rest.dropWhile isSpace, position.afterAll (c :: rest.takeWhile isSpace)⟩) := by
          simp only [next?, List.isEmpty_cons, Bool.false_eq_true, if_false, lexeme_space space, taken,
            dropped]
        rw [visible, readAll_of_next? read, List.dropWhile_cons_of_pos space,
          List.takeWhile_cons_of_pos space]
        exact List.filter_cons_of_neg (by simp)
      · rw [List.dropWhile_cons_of_neg space, List.takeWhile_cons_of_neg space]
        rfl

theorem visible_spaces {gap : List Char} (spaces : ∀ c ∈ gap, isSpace c = true) (rest : List Char)
    (position : Position) :
    (Cursor.mk (gap ++ rest) position).visible =
      (Cursor.mk rest (position.afterAll gap)).visible := by
  rw [visible_dropWhile, visible_dropWhile rest, List.dropWhile_append_of_pos spaces,
    List.takeWhile_append_of_pos spaces, Position.afterAll_append]

theorem visible_word {word : Word} {rest : List Char}
    (lexed : lexeme (word.text.toList ++ rest) = (word.kind, word.text.length))
    (other : word.kind ≠ .whitespace) (position : Position) :
    (Cursor.mk (word.text.toList ++ rest) position).visible =
      ⟨word.kind, word.text, ⟨position, position.afterAll word.text.toList⟩⟩ ::
        (Cursor.mk rest (position.afterAll word.text.toList)).visible := by
  have positive := lexeme_pos (word.text.toList ++ rest)
  rw [lexed, ← String.length_toList] at positive
  have nonempty : (word.text.toList ++ rest).isEmpty = false := by
    rw [List.isEmpty_eq_false_iff]
    exact List.append_ne_nil_of_left_ne_nil (List.ne_nil_of_length_pos positive) rest
  have read : (Cursor.mk (word.text.toList ++ rest) position).next? =
      some (⟨word.kind, word.text, ⟨position, position.afterAll word.text.toList⟩⟩,
        ⟨rest, position.afterAll word.text.toList⟩) := by
    simp only [next?, nonempty, Bool.false_eq_true, if_false, lexed, ← String.length_toList,
      List.take_left, List.drop_left, String.ofList_toList]
  rw [visible, readAll_of_next? read]
  exact List.filter_cons_of_pos (by simpa using other)

end Cursor

end Adventure
