import MapStyle.Decimal.Layout
import MapStyle.Program.Scanner

/-
  Terms as they are written. Operators have levels, the
  loosest first: ranges at 0, disjunction, conjunction,
  comparison, sums, products and powers at 1 to 6, signs at 7;
  everything else is at 8. Parentheses stand where a term is
  looser than its place, and nowhere else. Blanks stand before
  operators between terms and before commas; blanks, ends of
  lines and comments stand after them and after opening
  brackets.

  Key definitions include:
    * `Term.Every`
    * `Term.WellFormed`
    * `Term.FloatFree`
    * `BinaryOp.level`
    * `Gap`
    * `Phrase`
    * `Phrase.Written`

  Main statements:
    * `Term.WellFormed.exists_written`
-/

namespace MapStyle

open Scanner

------------------------------------------------------------
-- Well-formed terms
------------------------------------------------------------

/- A letter or underscore, then letters, digits, underscores. -/
def isName (name : String) : Bool :=
  match name.toList with
  | [] => false
  | c :: more => isNameStart c && more.all isNameChar

/- The names that stand for literals when they stand alone. -/
def reservedNames : List String :=
  ["true", "false", "nil"]

namespace Argument

/- The term in an argument. -/
def value : Argument → Term
  | .positional value => value
  | .keyword _ value => value

/- A keyword, if there is one, is a name. -/
def IsNamed : Argument → Prop
  | .positional _ => True
  | .keyword name _ => isName name = true

end Argument

namespace Term

/- A term of which every part is accepted, itself included. -/
inductive Every (accepted : Term → Prop) : Term → Prop
  | ident
      {name : String}
      (h : accepted (.ident name)) :
      Every accepted (.ident name)
  | literal
      {value : Literal}
      (h : accepted (.literal value)) :
      Every accepted (.literal value)
  | list
      {items : List Term}
      (h : accepted (.list items))
      (hItems : ∀ t ∈ items, Every accepted t) :
      Every accepted (.list items)
  | range
      {lower upper : Option Term}
      (h : accepted (.range lower upper))
      (hLower : ∀ t ∈ lower, Every accepted t)
      (hUpper : ∀ t ∈ upper, Every accepted t) :
      Every accepted (.range lower upper)
  | call
      {name : String}
      {args : List Argument}
      (h : accepted (.call name args))
      (hArgs : ∀ a ∈ args, Every accepted a.value) :
      Every accepted (.call name args)
  | method
      {subject : Term}
      {name : String}
      {args : List Argument}
      (h : accepted (.method subject name args))
      (hSubject : Every accepted subject)
      (hArgs : ∀ a ∈ args, Every accepted a.value) :
      Every accepted (.method subject name args)
  | index
      {subject : Term}
      {items : List Term}
      (h : accepted (.index subject items))
      (hSubject : Every accepted subject)
      (hItems : ∀ t ∈ items, Every accepted t) :
      Every accepted (.index subject items)
  | binary
      {left : Term}
      {op : BinaryOp}
      {right : Term}
      (h : accepted (.binary left op right))
      (hLeft : Every accepted left)
      (hRight : Every accepted right) :
      Every accepted (.binary left op right)
  | unary
      {op : UnaryOp}
      {operand : Term}
      (h : accepted (.unary op operand))
      (hOperand : Every accepted operand) :
      Every accepted (.unary op operand)

/- Every part of a term is accepted, the term among them. -/
theorem Every.self
    {accepted : Term → Prop}
    {t : Term}
    (h : t.Every accepted) : accepted t := by
  cases h <;> assumption

/-
  What is asked of a term apart from its parts: names are
  names, no integer is negative, a range has a bound and an
  index an item.
-/
def Fits : Term → Prop
  | .ident name => isName name = true ∧ name ∉ reservedNames
  | .literal (.int n) => 0 ≤ n
  | .range lower upper => lower.isSome ∨ upper.isSome
  | .call name args =>
      isName name = true ∧ ∀ a ∈ args, a.IsNamed
  | .method _ name args =>
      isName name = true ∧ ∀ a ∈ args, a.IsNamed
  | .index _ items => items ≠ []
  | _ => True

/- Anything but a fractional number. -/
def IsNoFloat : Term → Prop
  | .literal (.float _) => False
  | _ => True

/- Every part of the term fits. -/
def WellFormed (t : Term) : Prop :=
  t.Every Fits

/- No part of the term is a fractional number. -/
def FloatFree (t : Term) : Prop :=
  t.Every IsNoFloat

end Term

------------------------------------------------------------
-- Levels and marks
------------------------------------------------------------

namespace BinaryOp

/- The level of an operator; tighter ones are higher. -/
def level : BinaryOp → Nat
  | .or => 1
  | .and => 2
  | .eq | .ne | .lt | .le | .gt | .ge => 3
  | .add | .sub => 4
  | .mul | .div | .mod => 5
  | .pow => 6

/-
  The level of the place on the left. Only a term that is
  grouped to the left may stand there without parentheses.
-/
def leftLevel : BinaryOp → Nat
  | .or => 1
  | .and => 2
  | .eq | .ne | .lt | .le | .gt | .ge => 4
  | .add | .sub => 4
  | .mul | .div | .mod => 5
  | .pow => 7

/- The level of the place on the right. -/
def rightLevel : BinaryOp → Nat
  | .or => 2
  | .and => 3
  | .eq | .ne | .lt | .le | .gt | .ge => 4
  | .add | .sub => 5
  | .mul | .div | .mod => 6
  | .pow => 6

theorem level_lt (op : BinaryOp) : op.level < 9 := by
  cases op <;> decide

/-
  The left operand of an operator is no looser than the
  operator.
-/
theorem level_le_leftLevel (op : BinaryOp) :
    op.level ≤ op.leftLevel := by
  cases op <;> decide

theorem leftLevel_le (op : BinaryOp) :
    op.leftLevel ≤ 8 := by
  cases op <;> decide

theorem rightLevel_le (op : BinaryOp) :
    op.rightLevel ≤ 8 := by
  cases op <;> decide

/- An operator as it is written. -/
def mark : BinaryOp → List Char
  | .or => ['|']
  | .and => ['&']
  | .eq => ['=', '=']
  | .ne => ['!', '=']
  | .lt => ['<']
  | .le => ['<', '=']
  | .gt => ['>']
  | .ge => ['>', '=']
  | .add => ['+']
  | .sub => ['-']
  | .mul => ['*']
  | .div => ['/']
  | .mod => ['%']
  | .pow => ['*', '*']

end BinaryOp

/- A sign as it is written. -/
def UnaryOp.mark : UnaryOp → Char
  | .neg => '-'
  | .not => '!'

/- The level of a term. -/
def Term.level : Term → Nat
  | .range _ _ => 0
  | .binary _ op _ => op.level
  | .unary _ _ => 7
  | _ => 8

------------------------------------------------------------
-- Blanks
------------------------------------------------------------

/- Blanks within a line. -/
def IsSpacing (text : List Char) : Prop :=
  ∀ c ∈ text, isInlineBlank c = true

theorem isSpacing_nil : IsSpacing [] := by
  simp [IsSpacing]

/- Blanks, ends of lines, and lines of comments. -/
inductive Gap : List Char → Prop
  | nil : Gap []
  | blank
      {c : Char}
      {rest : List Char}
      (h : isLineBlank c = true)
      (hRest : Gap rest) :
      Gap (c :: rest)
  | comment
      {text ending rest : List Char}
      (hText : ∀ c ∈ text, c ≠ '\n' ∧ c ≠ '\r')
      (hEnding : ending = ['\n'] ∨ ending = ['\r', '\n'])
      (hRest : Gap rest) :
      Gap ('#' :: (text ++ (ending ++ rest)))

------------------------------------------------------------
-- Writing
------------------------------------------------------------

/- A character between quotes of a kind. -/
def escapedIn
    (quote c : Char) : List Char :=
  if c = quote ∨ c = '\\' then ['\\', c] else [c]

/- A string between quotes of a kind. -/
def quotedIn
    (quote : Char)
    (value : String) : List Char :=
  quote :: (value.toList.flatMap (escapedIn quote) ++ [quote])

/- A truth value as it is written. -/
def truthText : Bool → List Char
  | true => "true".toList
  | false => "false".toList

/- What is written. -/
inductive Phrase
  | term (level : Nat) (t : Term)
  | items (items : List Term)
  | argument (a : Argument)
  | arguments (args : List Argument)

/- A text that writes a phrase, a term in a place of a level. -/
inductive Phrase.Written : Phrase → List Char → Prop
  | ident
      {p : Nat}
      {name : String}
      (hName : isName name = true)
      (hFree : name ∉ reservedNames) :
      Written (.term p (.ident name)) name.toList
  | int
      {p : Nat}
      {n : Int64}
      (h : 0 ≤ n) :
      Written (.term p (.literal (.int n)))
        (Decimal.integerText n.toInt)
  | text
      {p : Nat}
      {quote : Char}
      {value : String}
      (hQuote : quote = '"' ∨ quote = '\'') :
      Written (.term p (.literal (.text value)))
        (quotedIn quote value)
  | bool
      {p : Nat}
      {value : Bool} :
      Written (.term p (.literal (.bool value)))
        (truthText value)
  | null
      {p : Nat} :
      Written (.term p (.literal .null)) "nil".toList
  | list
      {p : Nat}
      {items : List Term}
      {gap s : List Char}
      (hGap : Gap gap)
      (hItems : Written (.items items) s) :
      Written (.term p (.list items))
        ('[' :: (gap ++ (s ++ [']'])))
  | rangeTo
      {upper : Term}
      {s : List Char}
      (hUpper : Written (.term 1 upper) s) :
      Written (.term 0 (.range none (some upper)))
        ('.' :: '.' :: s)
  | rangeFrom
      {lower : Term}
      {s blanks : List Char}
      (hLower : Written (.term 1 lower) s)
      (hBlanks : IsSpacing blanks) :
      Written (.term 0 (.range (some lower) none))
        (s ++ (blanks ++ ['.', '.']))
  | range
      {lower upper : Term}
      {s blanks s' : List Char}
      (hLower : Written (.term 1 lower) s)
      (hBlanks : IsSpacing blanks)
      (hUpper : Written (.term 1 upper) s') :
      Written (.term 0 (.range (some lower) (some upper)))
        (s ++ (blanks ++ '.' :: '.' :: s'))
  | call
      {p : Nat}
      {name : String}
      {args : List Argument}
      {gap s : List Char}
      (hName : isName name = true)
      (hGap : Gap gap)
      (hArgs : Written (.arguments args) s) :
      Written (.term p (.call name args))
        (name.toList ++ '(' :: (gap ++ (s ++ [')'])))
  | member
      {p : Nat}
      {subject : Term}
      {name : String}
      {s : List Char}
      (hSubject : Written (.term 8 subject) s)
      (hName : isName name = true) :
      Written (.term p (.method subject name []))
        (s ++ '.' :: name.toList)
  | method
      {p : Nat}
      {subject : Term}
      {name : String}
      {args : List Argument}
      {s gap s' : List Char}
      (hSubject : Written (.term 8 subject) s)
      (hName : isName name = true)
      (hGap : Gap gap)
      (hArgs : Written (.arguments args) s') :
      Written (.term p (.method subject name args))
        (s ++ '.' ::
          (name.toList ++ '(' :: (gap ++ (s' ++ [')']))))
  | index
      {p : Nat}
      {subject : Term}
      {items : List Term}
      {s gap s' : List Char}
      (hSubject : Written (.term 8 subject) s)
      (hGap : Gap gap)
      (hItems : Written (.items items) s')
      (hSome : items ≠ []) :
      Written (.term p (.index subject items))
        (s ++ '[' :: (gap ++ (s' ++ [']'])))
  | unary
      {p : Nat}
      {op : UnaryOp}
      {operand : Term}
      {s : List Char}
      (hLevel : p ≤ 7)
      (hOperand : Written (.term 7 operand) s) :
      Written (.term p (.unary op operand)) (op.mark :: s)
  | binary
      {p : Nat}
      {left right : Term}
      {op : BinaryOp}
      {s blanks gap s' : List Char}
      (hLevel : p ≤ op.level)
      (hLeft : Written (.term op.leftLevel left) s)
      (hBlanks : IsSpacing blanks)
      (hGap : Gap gap)
      (hRight : Written (.term op.rightLevel right) s') :
      Written (.term p (.binary left op right))
        (s ++ (blanks ++ (op.mark ++ (gap ++ s'))))
  | parens
      {p : Nat}
      {t : Term}
      {gap s : List Char}
      (hLevel : t.level < p)
      (hGap : Gap gap)
      (hInner : Written (.term 0 t) s) :
      Written (.term p t) ('(' :: (gap ++ (s ++ [')'])))
  | noItems :
      Written (.items []) []
  | lastItem
      {t : Term}
      {s : List Char}
      (hItem : Written (.term 0 t) s) :
      Written (.items [t]) s
  | item
      {t next : Term}
      {more : List Term}
      {s blanks gap s' : List Char}
      (hItem : Written (.term 0 t) s)
      (hBlanks : IsSpacing blanks)
      (hGap : Gap gap)
      (hMore : Written (.items (next :: more)) s') :
      Written (.items (t :: next :: more))
        (s ++ (blanks ++ ',' :: (gap ++ s')))
  | positional
      {t : Term}
      {s : List Char}
      (hValue : Written (.term 0 t) s) :
      Written (.argument (.positional t)) s
  | keyword
      {name : String}
      {t : Term}
      {gap s : List Char}
      (hName : isName name = true)
      (hGap : Gap gap)
      (hValue : Written (.term 0 t) s) :
      Written (.argument (.keyword name t))
        (name.toList ++ ':' :: (gap ++ s))
  | noArguments :
      Written (.arguments []) []
  | lastArgument
      {a : Argument}
      {s : List Char}
      (hItem : Written (.argument a) s) :
      Written (.arguments [a]) s
  | moreArguments
      {a next : Argument}
      {more : List Argument}
      {s blanks gap s' : List Char}
      (hItem : Written (.argument a) s)
      (hBlanks : IsSpacing blanks)
      (hGap : Gap gap)
      (hMore : Written (.arguments (next :: more)) s') :
      Written (.arguments (a :: next :: more))
        (s ++ (blanks ++ ',' :: (gap ++ s')))

------------------------------------------------------------
-- Every well-formed term can be written
------------------------------------------------------------

/- A term that can be written bare can stand in any place. -/
theorem exists_written_of_bare
    {t : Term}
    (h : ∀ p ≤ t.level, ∃ s, Phrase.Written (.term p t) s)
    (p : Nat) :
    ∃ s, Phrase.Written (.term p t) s := by
  by_cases hLevel : p ≤ t.level
  · exact h p hLevel
  · rcases h 0 (Nat.zero_le _) with ⟨s, hs⟩
    exact ⟨_, .parens (by omega) .nil hs⟩

/-
  If each item can be written, the list can, with commas
  between the items.
-/
theorem exists_written_items
    {items : List Term}
    (h : ∀ t ∈ items, ∃ s, Phrase.Written (.term 0 t) s) :
    ∃ s, Phrase.Written (.items items) s := by
  induction items with
  | nil => exact ⟨[], .noItems⟩
  | cons t more ih =>
      rcases h t (by simp) with ⟨s, hs⟩
      cases more with
      | nil => exact ⟨s, .lastItem hs⟩
      | cons next more =>
          have hMore := ih (fun u hu => h u (by simp [hu]))
          rcases hMore with ⟨s', hs'⟩
          exact ⟨_, .item hs isSpacing_nil .nil hs'⟩

/- A keyword is written in front of its value. -/
theorem exists_written_argument
    {a : Argument}
    (hNamed : a.IsNamed)
    (h : ∃ s, Phrase.Written (.term 0 a.value) s) :
    ∃ s, Phrase.Written (.argument a) s := by
  rcases h with ⟨s, hs⟩
  cases a with
  | positional t => exact ⟨s, .positional hs⟩
  | keyword name t => exact ⟨_, .keyword hNamed .nil hs⟩

theorem exists_written_arguments
    {args : List Argument}
    (h : ∀ a ∈ args, ∃ s, Phrase.Written (.argument a) s) :
    ∃ s, Phrase.Written (.arguments args) s := by
  induction args with
  | nil => exact ⟨[], .noArguments⟩
  | cons a more ih =>
      rcases h a (by simp) with ⟨s, hs⟩
      cases more with
      | nil => exact ⟨s, .lastArgument hs⟩
      | cons next more =>
          have hMore := ih (fun b hb => h b (by simp [hb]))
          rcases hMore with ⟨s', hs'⟩
          exact ⟨_, .moreArguments hs isSpacing_nil .nil hs'⟩

/-
  A well-formed term without fractional numbers can be written
  in every place. The proof follows the parts of the term.
-/
theorem Term.WellFormed.exists_written
    {t : Term}
    (h : t.WellFormed)
    (hFree : t.FloatFree)
    (p : Nat) :
    ∃ s, Phrase.Written (.term p t) s := by
  induction h generalizing p with
  | ident h => exact ⟨_, .ident h.1 h.2⟩
  | @literal value h =>
      cases value with
      | text value => exact ⟨_, .text (.inl rfl)⟩
      | int n => exact ⟨_, .int h⟩
      | float x => exact hFree.self.elim
      | bool b => exact ⟨_, .bool⟩
      | null => exact ⟨_, .null⟩
  | list h hItems ih =>
      cases hFree with
      | list _ hFree =>
          have hs := exists_written_items
            (fun t ht => ih t ht (hFree t ht) 0)
          rcases hs with ⟨s, hs⟩
          exact ⟨_, .list .nil hs⟩
  | @range lower upper h hLower hUpper ihLower ihUpper =>
      cases hFree with
      | range _ hFreeLower hFreeUpper =>
          refine exists_written_of_bare ?_ p
          intro q hq
          have hq : q = 0 := Nat.le_zero.mp hq
          subst hq
          cases lower with
          | none =>
              cases upper with
              | none => simp [Fits] at h
              | some b =>
                  rcases ihUpper b rfl (hFreeUpper b rfl) 1
                    with ⟨s, hs⟩
                  exact ⟨_, .rangeTo hs⟩
          | some a =>
              rcases ihLower a rfl (hFreeLower a rfl) 1
                with ⟨s, hs⟩
              cases upper with
              | none => exact ⟨_, .rangeFrom hs isSpacing_nil⟩
              | some b =>
                  rcases ihUpper b rfl (hFreeUpper b rfl) 1
                    with ⟨s', hs'⟩
                  exact ⟨_, .range hs isSpacing_nil hs'⟩
  | call h hArgs ih =>
      cases hFree with
      | call _ hFree =>
          have hs := exists_written_arguments
            (fun a ha => exists_written_argument (h.2 a ha)
              (ih a ha (hFree a ha) 0))
          rcases hs with ⟨s, hs⟩
          exact ⟨_, .call h.1 .nil hs⟩
  | method h hSubject hArgs ihSubject ihArgs =>
      cases hFree with
      | method _ hFreeSubject hFreeArgs =>
          rcases ihSubject hFreeSubject 8 with ⟨s, hs⟩
          have hs' := exists_written_arguments
            (fun a ha => exists_written_argument (h.2 a ha)
              (ihArgs a ha (hFreeArgs a ha) 0))
          rcases hs' with ⟨s', hs'⟩
          exact ⟨_, .method hs h.1 .nil hs'⟩
  | index h hSubject hItems ihSubject ihItems =>
      cases hFree with
      | index _ hFreeSubject hFreeItems =>
          rcases ihSubject hFreeSubject 8 with ⟨s, hs⟩
          have hs' := exists_written_items
            (fun t ht => ihItems t ht (hFreeItems t ht) 0)
          rcases hs' with ⟨s', hs'⟩
          exact ⟨_, .index hs .nil hs' h⟩
  | @binary left op right h hLeft hRight ihLeft ihRight =>
      cases hFree with
      | binary _ hFreeLeft hFreeRight =>
          refine exists_written_of_bare ?_ p
          intro q hq
          rcases ihLeft hFreeLeft op.leftLevel with ⟨s, hs⟩
          rcases ihRight hFreeRight op.rightLevel with ⟨s', hs'⟩
          exact ⟨_, .binary hq hs isSpacing_nil .nil hs'⟩
  | unary h hOperand ih =>
      cases hFree with
      | unary _ hFree =>
          refine exists_written_of_bare ?_ p
          intro q hq
          rcases ih hFree 7 with ⟨s, hs⟩
          exact ⟨_, .unary hq hs⟩

end MapStyle
