import OmniviaCore.Lib.PrefixCode

/-!
# Texts of JSON trees

A `Tree` is a JSON value whose numbers are tokens and whose objects are lists of members, and `render`
writes it without white space, with strings escaped by a prefix code. A text is then the text of one
tree only, also when more text follows it that starts like the end of a value: `render_unambiguous`.
-/

namespace OmniviaCore.Lib

/-- A JSON value as it is written. -/
inductive Tree where
  | null
  | bool (b : Bool)
  | number (token : List Char)
  | string (chars : List Char)
  | array (items : List Tree)
  | object (members : List (List Char × Tree))

namespace Tree

def isNumberChar (c : Char) : Bool := c.isDigit || c = '-' || c = '+' || c = '.' || c = 'e'

/-- Every number of the tree is made of the characters of a number. -/
inductive Tokens : Tree → Prop where
  | null : Tokens .null
  | bool (b : Bool) : Tokens (.bool b)
  | number {token : List Char} (ne_nil : token ≠ []) (h : ∀ c ∈ token, isNumberChar c = true) :
      Tokens (.number token)
  | string (chars : List Char) : Tokens (.string chars)
  | array {items : List Tree} (h : ∀ item ∈ items, Tokens item) : Tokens (.array items)
  | object {members : List (List Char × Tree)} (h : ∀ m ∈ members, Tokens m.2) :
      Tokens (.object members)

/-- Texts between brackets, with commas between them. -/
def bracketed (opening closing : Char) (texts : List (List Char)) : List Char :=
  opening :: (List.intercalate [','] texts ++ [closing])

section

variable (escape : Char → List Char)

def quoted (chars : List Char) : List Char := '"' :: (chars.flatMap escape ++ ['"'])

mutual

def render : Tree → List Char
  | .null => "null".toList
  | .bool true => "true".toList
  | .bool false => "false".toList
  | .number token => token
  | .string chars => quoted escape chars
  | .array items => bracketed '[' ']' (renderItems items)
  | .object members => bracketed '{' '}' (renderMembers members)

def renderItems : List Tree → List (List Char)
  | [] => []
  | item :: items => render item :: renderItems items

def renderMembers : List (List Char × Tree) → List (List Char)
  | [] => []
  | (name, item) :: members => (quoted escape name ++ ':' :: render item) :: renderMembers members

end

theorem renderItems_eq (items : List Tree) :
    renderItems escape items = items.map (render escape) := by
  induction items with
  | nil => rfl
  | cons item items ih => rw [renderItems, ih, List.map_cons]

theorem renderMembers_eq (members : List (List Char × Tree)) :
    renderMembers escape members =
      members.map fun m => quoted escape m.1 ++ ':' :: render escape m.2 := by
  induction members with
  | nil => rfl
  | cons m members ih => rw [renderMembers, ih, List.map_cons]

end

/-! ## The kind of a value -/

inductive Kind where
  | null
  | bool
  | number
  | string
  | array
  | object
  deriving DecidableEq

def kind : Tree → Kind
  | .null => .null
  | .bool _ => .bool
  | .number _ => .number
  | .string _ => .string
  | .array _ => .array
  | .object _ => .object

/-- The kind of value that starts with a character. -/
def kindAt (c : Char) : Kind :=
  if c = 'n' then .null
  else if c = 't' ∨ c = 'f' then .bool
  else if c = '"' then .string
  else if c = '[' then .array
  else if c = '{' then .object
  else .number

theorem kindAt_number {c : Char} (h : isNumberChar c = true) : kindAt c = .number := by
  have hne : ∀ d : Char, isNumberChar d = false → c ≠ d := by
    rintro d hd rfl
    rw [h] at hd
    cases hd
  have hn := hne 'n' rfl
  have ht := hne 't' rfl
  have hf := hne 'f' rfl
  have hquote := hne '"' rfl
  have harray := hne '[' rfl
  have hobject := hne '\x7b' rfl
  simp [kindAt, hn, ht, hf, hquote, harray, hobject]

variable {escape : Char → List Char}

theorem kindAt_render (escape : Char → List Char) {t : Tree} (ht : t.Tokens) :
    ∃ c text, t.render escape = c :: text ∧ kindAt c = t.kind := by
  cases ht with
  | null => exact ⟨'n', _, rfl, rfl⟩
  | bool b =>
    cases b with
    | true => exact ⟨'t', _, rfl, rfl⟩
    | false => exact ⟨'f', _, rfl, rfl⟩
  | number ne_nil h =>
    rename_i token
    cases token with
    | nil => exact absurd rfl ne_nil
    | cons c token => exact ⟨c, token, rfl, kindAt_number (h c List.mem_cons_self)⟩
  | string chars => exact ⟨'"', _, rfl, rfl⟩
  | array h => exact ⟨'[', _, rfl, rfl⟩
  | object h => exact ⟨'\x7b', _, rfl, rfl⟩

theorem kind_eq_of_render_append {t u : Tree} (ht : t.Tokens) (hu : u.Tokens) {r s : List Char}
    (h : t.render escape ++ r = u.render escape ++ s) : t.kind = u.kind := by
  obtain ⟨c, _, hc, hct⟩ := kindAt_render escape ht
  obtain ⟨d, _, hd, hdu⟩ := kindAt_render escape hu
  rw [hc, hd] at h
  rw [← hct, ← hdu, List.head_eq_of_cons_eq h]

/-! ## What follows a value -/

/-- A text that does not go on with the value before it. -/
def Ends (text : List Char) : Prop := ∀ c ∈ text.head?, isNumberChar c = false

theorem ends_nil : Ends [] := by
  intro c hc
  cases hc

theorem ends_cons {c : Char} (h : isNumberChar c = false) (text : List Char) : Ends (c :: text) := by
  intro d hd
  cases hd
  exact h

/-- What follows the first of some bracketed texts. -/
def follow (closing : Char) (r : List Char) : List (List Char) → List Char
  | [] => closing :: r
  | text :: texts => ',' :: (text ++ follow closing r texts)

theorem bracketed_cons (opening closing : Char) (text : List Char) (texts : List (List Char))
    (r : List Char) :
    bracketed opening closing (text :: texts) ++ r =
      opening :: (text ++ follow closing r texts) := by
  induction texts generalizing text opening with
  | nil => simp [bracketed, follow, List.intercalate]
  | cons next texts ih =>
    have hnext := ih ',' next
    simp only [bracketed, List.cons_append, List.append_assoc, List.cons.injEq, true_and,
      List.intercalate_cons_cons, List.nil_append] at hnext ⊢
    rw [follow, hnext]

theorem bracketed_nil (opening closing : Char) (r : List Char) :
    bracketed opening closing [] ++ r = opening :: closing :: r := rfl

theorem ends_follow {closing : Char} (h : isNumberChar closing = false) (r : List Char)
    (texts : List (List Char)) : Ends (follow closing r texts) := by
  cases texts with
  | nil => exact ends_cons h _
  | cons text texts => exact ends_cons rfl _

theorem number_unambiguous {token token' r s : List Char} (htoken : ∀ c ∈ token, isNumberChar c = true)
    (htoken' : ∀ c ∈ token', isNumberChar c = true) (hr : Ends r) (hs : Ends s)
    (h : token ++ r = token' ++ s) : token = token' ∧ r = s := by
  have hend : ∀ {text : List Char}, Ends text → text.takeWhile isNumberChar = [] := by
    intro text htext
    cases text with
    | nil => rfl
    | cons c text => rw [List.takeWhile_cons_of_neg (by simp [htext c rfl])]
  have htake := congrArg (List.takeWhile isNumberChar) h
  rw [List.takeWhile_append_of_pos htoken, List.takeWhile_append_of_pos htoken', hend hr, hend hs,
    List.append_nil, List.append_nil] at htake
  subst htake
  exact ⟨rfl, List.append_cancel_left h⟩

theorem quoted_unambiguous (code : PrefixCode escape)
    (hquote : ∀ c, (escape c).head? ≠ some '"') {l m r s : List Char}
    (h : quoted escape l ++ r = quoted escape m ++ s) : l = m ∧ r = s := by
  simp only [quoted, List.cons_append, List.append_assoc, List.cons.injEq, true_and,
    List.nil_append] at h
  exact code.unambiguous_of_stop hquote h

/-! ## Unambiguity -/

/-- Bracketed texts whose elements are unambiguous, one after the other. -/
theorem follow_unambiguous {α : Type} {text : α → List Char} {closing : Char}
    (hclosing : isNumberChar closing = false) (hcomma : closing ≠ ',') {l m : List α}
    (hl : ∀ a ∈ l, ∀ b ∈ m, ∀ r s, Ends r → Ends s → text a ++ r = text b ++ s → a = b ∧ r = s)
    {r s : List Char} (h : follow closing r (l.map text) = follow closing s (m.map text)) :
    l = m ∧ r = s := by
  induction l generalizing m with
  | nil =>
    cases m with
    | nil => exact ⟨rfl, List.tail_eq_of_cons_eq h⟩
    | cons b m => exact absurd (List.head_eq_of_cons_eq h) hcomma
  | cons a l ih =>
    cases m with
    | nil => exact absurd (List.head_eq_of_cons_eq h).symm hcomma
    | cons b m =>
      obtain ⟨rfl, hrest⟩ := hl a List.mem_cons_self b List.mem_cons_self _ _
        (ends_follow hclosing _ _) (ends_follow hclosing _ _) (List.tail_eq_of_cons_eq h)
      obtain ⟨rfl, hrs⟩ := ih (fun a ha b hb => hl a (List.mem_cons_of_mem _ ha) b
        (List.mem_cons_of_mem _ hb)) hrest
      exact ⟨rfl, hrs⟩

/-- Bracketed texts, none of whose elements starts with the closing bracket. -/
theorem bracketed_unambiguous {α : Type} {text : α → List Char} {opening closing : Char}
    (hclosing : isNumberChar closing = false) (hcomma : closing ≠ ',') {l m : List α}
    (hhead : ∀ a, a ∈ l ∨ a ∈ m → ∀ r s, text a ++ r ≠ closing :: s)
    (hl : ∀ a ∈ l, ∀ b ∈ m, ∀ r s, Ends r → Ends s → text a ++ r = text b ++ s → a = b ∧ r = s)
    {r s : List Char} (h : bracketed opening closing (l.map text) ++ r =
      bracketed opening closing (m.map text) ++ s) : l = m ∧ r = s := by
  cases l with
  | nil =>
    cases m with
    | nil => exact ⟨rfl, List.tail_eq_of_cons_eq (List.tail_eq_of_cons_eq h)⟩
    | cons b m =>
      rw [List.map_nil, bracketed_nil, List.map_cons, bracketed_cons] at h
      exact absurd (List.tail_eq_of_cons_eq h).symm (hhead b (.inr List.mem_cons_self) _ _)
  | cons a l =>
    cases m with
    | nil =>
      rw [List.map_nil, bracketed_nil, List.map_cons, bracketed_cons] at h
      exact absurd (List.tail_eq_of_cons_eq h) (hhead a (.inl List.mem_cons_self) _ _)
    | cons b m =>
      rw [List.map_cons, List.map_cons, bracketed_cons, bracketed_cons] at h
      refine follow_unambiguous hclosing hcomma hl ?_
      rw [List.map_cons, List.map_cons, follow, follow, List.tail_eq_of_cons_eq h]

theorem render_append_ne {t : Tree} (ht : t.Tokens) {c : Char} (hc : isNumberChar c = false)
    (hkind : kindAt c = .number) (r s : List Char) : t.render escape ++ r ≠ c :: s := by
  obtain ⟨d, text, hd, hdt⟩ := kindAt_render escape ht
  intro h
  rw [hd] at h
  obtain rfl : d = c := List.head_eq_of_cons_eq h
  -- only a number has this kind, and a number does not start with such a character
  cases ht with
  | null => rw [hkind] at hdt; cases hdt
  | bool b => rw [hkind] at hdt; cases hdt
  | string chars => rw [hkind] at hdt; cases hdt
  | array h => rw [hkind] at hdt; cases hdt
  | object h => rw [hkind] at hdt; cases hdt
  | number ne_nil hnumber =>
    obtain rfl : _ = d :: text := hd
    rw [hnumber d List.mem_cons_self] at hc
    cases hc

/-- A text that ends as a value does is the text of one tree. -/
theorem render_unambiguous (code : PrefixCode escape)
    (hquote : ∀ c, (escape c).head? ≠ some '"') {t u : Tree} (ht : t.Tokens) (hu : u.Tokens)
    {r s : List Char} (hr : Ends r) (hs : Ends s)
    (h : t.render escape ++ r = u.render escape ++ s) : t = u ∧ r = s := by
  have hkind := kind_eq_of_render_append ht hu h
  induction ht generalizing u r s with
  | null =>
    cases hu <;> cases hkind
    exact ⟨rfl, List.append_cancel_left h⟩
  | bool b =>
    cases hu <;> cases hkind
    rename_i c
    cases b <;> cases c
    · exact ⟨rfl, List.append_cancel_left h⟩
    · exact absurd (List.head_eq_of_cons_eq h) (by decide)
    · exact absurd (List.head_eq_of_cons_eq h) (by decide)
    · exact ⟨rfl, List.append_cancel_left h⟩
  | number ne_nil htoken =>
    cases hu <;> cases hkind
    rename_i htoken'
    obtain ⟨rfl, hrs⟩ := number_unambiguous htoken htoken' hr hs h
    exact ⟨rfl, hrs⟩
  | string chars =>
    cases hu <;> cases hkind
    obtain ⟨rfl, hrs⟩ := quoted_unambiguous code hquote h
    exact ⟨rfl, hrs⟩
  | array hitems ih =>
    cases hu <;> cases hkind
    rename_i items items' hitems'
    rw [render, render, renderItems_eq, renderItems_eq] at h
    obtain ⟨rfl, hrs⟩ := bracketed_unambiguous rfl (by decide)
      (by
        rintro item (hitem | hitem)
        · exact render_append_ne (hitems item hitem) rfl rfl
        · exact render_append_ne (hitems' item hitem) rfl rfl)
      (fun item hitem item' hitem' r s hr hs htext => ih item hitem (hitems' item' hitem') hr hs htext
        (kind_eq_of_render_append (hitems item hitem) (hitems' item' hitem') htext)) h
    exact ⟨rfl, hrs⟩
  | object hmembers ih =>
    cases hu <;> cases hkind
    rename_i members members' hmembers'
    rw [render, render, renderMembers_eq, renderMembers_eq] at h
    have hmember : ∀ m ∈ members, ∀ m' ∈ members', ∀ r s, Ends r → Ends s →
        quoted escape m.1 ++ ':' :: render escape m.2 ++ r =
          quoted escape m'.1 ++ ':' :: render escape m'.2 ++ s → m = m' ∧ r = s := by
      rintro ⟨name, item⟩ hm ⟨name', item'⟩ hm' r s hr hs htext
      rw [List.append_assoc, List.append_assoc] at htext
      obtain ⟨rfl, hrest⟩ := quoted_unambiguous code hquote htext
      obtain ⟨rfl, hrs⟩ := ih _ hm (hmembers' _ hm') hr hs (List.tail_eq_of_cons_eq hrest)
        (kind_eq_of_render_append (hmembers _ hm) (hmembers' _ hm') (List.tail_eq_of_cons_eq hrest))
      exact ⟨rfl, hrs⟩
    obtain ⟨rfl, hrs⟩ := bracketed_unambiguous rfl (by decide)
      (fun m _ r s htext => absurd (List.head_eq_of_cons_eq htext) (by decide)) hmember h
    exact ⟨rfl, hrs⟩

theorem render_injective (code : PrefixCode escape) (hquote : ∀ c, (escape c).head? ≠ some '"')
    {t u : Tree} (ht : t.Tokens) (hu : u.Tokens) (h : t.render escape = u.render escape) : t = u := by
  refine (render_unambiguous code hquote ht hu ends_nil ends_nil ?_).1
  rw [List.append_nil, List.append_nil, h]

end Tree

end OmniviaCore.Lib
