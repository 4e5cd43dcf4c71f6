/-! Blank characters are the ones with the White_Space property of Unicode. Trimming takes them off
both ends of a text, and splitting cuts a text at separators without looking at blanks. -/

namespace DocumentStore.Text

def isBlank (c : Char) : Bool :=
  let n := c.toNat
  (0x9 ≤ n && n ≤ 0xD) || n == 0x20 || n == 0x85 || n == 0xA0 || n == 0x1680 ||
    (0x2000 ≤ n && n ≤ 0x200A) || n == 0x2028 || n == 0x2029 || n == 0x202F ||
    n == 0x205F || n == 0x3000

def trimChars (cs : List Char) : List Char :=
  ((cs.dropWhile isBlank).reverse.dropWhile isBlank).reverse

def trim (s : String) : String :=
  String.ofList (trimChars s.toList)

/-- The runs of characters between separators, empty runs included. -/
def pieces (sep : Char → Bool) : List Char → List (List Char)
  | [] => [[]]
  | c :: cs =>
    match pieces sep cs with
    | [] => [[c]]
    | p :: ps => if sep c then [] :: p :: ps else (c :: p) :: ps

/-- The lower-case form of the ASCII letters; other characters stay as they are. -/
def lower (s : String) : String :=
  String.ofList (s.toList.map Char.toLower)

theorem pieces_ne_nil (sep : Char → Bool) (cs : List Char) : pieces sep cs ≠ [] := by
  cases cs with
  | nil => simp [pieces]
  | cons c cs =>
    rw [pieces]
    split
    · simp
    · split <;> simp

theorem not_sep_of_mem_pieces {sep : Char → Bool} {cs p : List Char} (hp : p ∈ pieces sep cs) :
    ∀ c ∈ p, sep c = false := by
  induction cs generalizing p with
  | nil => simp [pieces] at hp; simp [hp]
  | cons c cs ih =>
    rw [pieces] at hp
    split at hp
    · next h => exact absurd h (pieces_ne_nil sep cs)
    · next q qs h =>
      split at hp
      · rcases List.mem_cons.mp hp with rfl | hp
        · simp
        · exact ih (h ▸ hp)
      · next hc =>
        rcases List.mem_cons.mp hp with rfl | hp
        · intro d hd
          rcases List.mem_cons.mp hd with rfl | hd
          · simpa using hc
          · exact ih (h ▸ List.mem_cons_self) d hd
        · exact ih (h ▸ List.mem_cons_of_mem _ hp)

theorem mem_of_mem_trimChars {c : Char} {cs : List Char} (h : c ∈ trimChars cs) : c ∈ cs := by
  have h₁ := List.mem_reverse.mp h
  have h₂ := (List.dropWhile_sublist isBlank).mem h₁
  exact (List.dropWhile_sublist isBlank).mem (List.mem_reverse.mp h₂)

theorem dropWhile_eq_self_of_dropWhile {α : Type} (p : α → Bool) (xs : List α) :
    (xs.dropWhile p).dropWhile p = xs.dropWhile p := by
  induction xs with
  | nil => rfl
  | cons x xs ih => by_cases h : p x <;> simp [h, ih]

theorem dropWhile_reverse_dropWhile {α : Type} (p : α → Bool) (xs : List α)
    (h : xs.dropWhile p = xs) :
    ((xs.reverse.dropWhile p).reverse).dropWhile p = (xs.reverse.dropWhile p).reverse := by
  obtain ⟨t, ht⟩ := List.dropWhile_suffix (l := xs.reverse) p
  have hx : xs = (xs.reverse.dropWhile p).reverse ++ t.reverse := by
    rw [← List.reverse_append, ht, List.reverse_reverse]
  generalize (xs.reverse.dropWhile p).reverse = ys at hx
  cases ys with
  | nil => rfl
  | cons y ys =>
    subst hx
    by_cases hy : p y
    · have := congrArg List.length h
      have hle := (List.dropWhile_sublist (l := ys ++ t.reverse) p).length_le
      simp [hy] at this
      simp at hle
      omega
    · simp [hy]

theorem trimChars_trimChars (cs : List Char) : trimChars (trimChars cs) = trimChars cs := by
  have h := dropWhile_reverse_dropWhile isBlank (cs.dropWhile isBlank)
    (dropWhile_eq_self_of_dropWhile isBlank cs)
  rw [trimChars, trimChars, h, List.reverse_reverse, dropWhile_eq_self_of_dropWhile]

theorem trim_trim (s : String) : trim (trim s) = trim s := by
  simp [trim, trimChars_trimChars]

end DocumentStore.Text
