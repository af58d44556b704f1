import TokenBridge.Json.Parser
import TokenBridge.Proofs.Json.Scalar

namespace TokenBridge.Json

/-- No text of a document starts with a blank or with the end of an array. -/
def Starts (input : List Char) : Prop :=
  ∃ c rest, input = c :: rest ∧ isBlank c = false ∧ c ≠ ']'

/-- From the text of the document nothing else is read, whatever follows. A bracket costs two steps
of the search and a comma one, so that two for each character are enough. -/
structure Reads (shape : Shape) (j : Json) : Prop where
  starts : ∀ depth, Starts (write .compact depth j)
  value?_write : ∀ depth fuel rest, 2 * (write .compact depth j).length ≤ fuel → Follows rest →
    value? fuel shape (write .compact depth j ++ rest) = some (j, rest)

variable {shape : Shape}

/-! Documents without blanks. -/

theorem write_array (depth : Nat) (x : Json) (items : List Json) :
    write .compact depth (array (x :: items)) =
      '[' :: (write .compact (depth + 1) x ++ writeItems .compact depth items) := rfl

theorem writeItems_nil (depth : Nat) : writeItems .compact depth [] = [']'] := rfl

theorem writeItems_cons (depth : Nat) (x : Json) (items : List Json) :
    writeItems .compact depth (x :: items) =
      ',' :: (write .compact (depth + 1) x ++ writeItems .compact depth items) := rfl

theorem write_object (depth : Nat) (name : Option String) (x : Json)
    (members : List (Option String × Json)) :
    write .compact depth (object ((name, x) :: members)) =
      '\x7b' :: (quote name ++ ':' :: (write .compact (depth + 1) x ++
        writeMembers .compact depth members)) := by
  rw [write]
  simp [Layout.compact]

theorem writeMembers_nil (depth : Nat) : writeMembers .compact depth [] = ['\x7d'] := rfl

theorem writeMembers_cons (depth : Nat) (name : Option String) (x : Json)
    (members : List (Option String × Json)) :
    writeMembers .compact depth ((name, x) :: members) =
      ',' :: (quote name ++ ':' :: (write .compact (depth + 1) x ++
        writeMembers .compact depth members)) := by
  rw [writeMembers]
  simp [Layout.compact]

theorem Starts.skip_append {input : List Char} (h : Starts input) (rest : List Char) :
    skip (input ++ rest) = input ++ rest := by
  obtain ⟨c, tail, rfl, hc, -⟩ := h
  rw [List.cons_append, skip, List.dropWhile_cons_of_neg (Bool.not_eq_true _ ▸ hc)]

theorem Follows.skip_eq {rest : List Char} (h : Follows rest) : skip rest = rest := by
  cases h <;> rfl

theorem Reads.of_succ {j : Json} (hstarts : ∀ depth, Starts (write .compact depth j))
    (hvalue : ∀ depth fuel rest, 2 * (write .compact depth j).length ≤ fuel + 1 → Follows rest →
      value? (fuel + 1) shape (write .compact depth j ++ rest) = some (j, rest)) :
    Reads shape j where
  starts := hstarts
  value?_write depth fuel rest hfuel hrest := by
    cases fuel with
    | zero =>
      obtain ⟨c, tail, hwrite, -⟩ := hstarts depth
      rw [hwrite] at hfuel
      cases hfuel
    | succ fuel => exact hvalue depth fuel rest hfuel hrest

theorem null_reads : Reads shape null :=
  .of_succ (fun _ ↦ ⟨'n', _, rfl, rfl, by decide⟩) fun _ _ _ _ _ ↦ rfl

theorem bool_reads (b : Bool) : Reads shape (bool b) := by
  cases b with
  | false => exact .of_succ (fun _ ↦ ⟨'f', _, rfl, rfl, by decide⟩) fun _ _ _ _ _ ↦ rfl
  | true => exact .of_succ (fun _ ↦ ⟨'t', _, rfl, rfl, by decide⟩) fun _ _ _ _ _ ↦ rfl

theorem ne_of_isDigit {c : Char} (h : isDigit c = true) (others : List Char)
    (hothers : others.all (!isDigit ·) = true) : ∀ d ∈ others, c ≠ d := by
  rintro d hd rfl
  have hother := List.all_eq_true.1 hothers c hd
  rw [h] at hother
  cases hother

theorem value?_of_isDigit {c : Char} (h : isDigit c = true) (fuel : Nat) (rest : List Char) :
    value? (fuel + 1) shape (c :: rest) = numeral? (c :: rest) := by
  have hne := ne_of_isDigit h ['n', 't', 'f', '"', '[', '\x7b'] (by decide)
  simp only [List.forall_mem_cons] at hne
  simp [value?, hne]

theorem nat_reads (n : Nat) : Reads shape (nat n) := by
  obtain ⟨c, front, hfront, hdigit, -⟩ := exists_toDigits_eq_cons n
  refine .of_succ (fun _ ↦ ⟨c, front, hfront, ?_⟩) ?_
  · have hne := ne_of_isDigit hdigit [']', ' ', '\n', '\r', '\t'] (by decide)
    simp only [List.forall_mem_cons] at hne
    simp [isBlank, hne]
  · intro depth fuel rest _ hrest
    rw [write, hfront, List.cons_append, value?_of_isDigit hdigit, ← List.cons_append, ← hfront,
      numeral?_toDigits n hrest]

theorem text_reads (s : String) : Reads shape (text s) := by
  refine .of_succ (fun _ ↦ ⟨'"', _, rfl, rfl, by decide⟩) fun depth fuel rest _ _ ↦ ?_
  rw [text, write, quote_append, value?, string?_quote, Option.map_some]

theorem items?_write {x : Json} {items : List Json} (index depth fuel : Nat)
    (hopen : ∀ count, shape.isFull count = false)
    (hreads : ∀ k y, (x :: items)[k]? = some y → Reads (shape.item (index + k)) y)
    (hfuel : 2 * (write .compact (depth + 1) x ++ writeItems .compact depth items).length ≤ fuel)
    (rest : List Char) :
    items? fuel shape index
      (write .compact (depth + 1) x ++ (writeItems .compact depth items ++ rest)) =
        some (x :: items, rest) := by
  have hfirst : Reads (shape.item index) x := hreads 0 x rfl
  -- on the items behind the first one, which move up by one place in the array
  induction items generalizing x index fuel with
  | nil =>
    rw [writeItems_nil, List.length_append, List.length_singleton] at hfuel
    obtain ⟨fuel, rfl⟩ : ∃ n, fuel = n + 1 := ⟨fuel - 1, by omega⟩
    have hx := hfirst.value?_write (depth + 1) fuel _ (by omega) (.bracket rest)
    rw [writeItems_nil, List.singleton_append, items?, hx]
    rfl
  | cons y items ih =>
    rw [writeItems_cons, List.length_append, List.length_cons] at hfuel
    obtain ⟨fuel, rfl⟩ : ∃ n, fuel = n + 1 := ⟨fuel - 1, by omega⟩
    have hx := fun later ↦ hfirst.value?_write (depth + 1) fuel _ (by omega) (.comma later)
    have hlater : ∀ k z, (y :: items)[k]? = some z → Reads (shape.item (index + 1 + k)) z := by
      intro k z hz
      rw [Nat.add_assoc, Nat.add_comm 1 k]
      exact hreads (k + 1) z hz
    have hsecond : Reads (shape.item (index + 1)) y := hlater 0 y rfl
    have hnext := ih (index + 1) fuel hlater (by omega) hsecond
    have hskip := (hsecond.starts (depth + 1)).skip_append (writeItems .compact depth items ++ rest)
    rw [writeItems_cons, List.cons_append, List.append_assoc, items?, hx]
    simp [(Follows.comma _).skip_eq, hopen, hskip, hnext]

theorem members?_write {name : String} {x : Json} {members : List (Option String × Json)}
    (depth fuel : Nat)
    (hreads : ∀ m ∈ (some name, x) :: members, m.1.isSome ∧ Reads (shape.member m.1) m.2)
    (hfuel :
      2 * (write .compact (depth + 1) x ++ writeMembers .compact depth members).length ≤ fuel)
    (rest : List Char) :
    members? fuel shape (quote (some name) ++
      ':' :: (write .compact (depth + 1) x ++ (writeMembers .compact depth members ++ rest))) =
        some ((some name, x) :: members, rest) := by
  have hfirst : Reads (shape.member (some name)) x := (hreads _ List.mem_cons_self).2
  have hskip := (hfirst.starts (depth + 1)).skip_append
  have hcolon (later : List Char) : skip (':' :: later) = ':' :: later := rfl
  induction members generalizing name x fuel with
  | nil =>
    rw [writeMembers_nil, List.length_append, List.length_singleton] at hfuel
    obtain ⟨fuel, rfl⟩ : ∃ n, fuel = n + 1 := ⟨fuel - 1, by omega⟩
    have hx := hfirst.value?_write (depth + 1) fuel _ (by omega) (.brace rest)
    rw [writeMembers_nil, List.singleton_append, quote_append, members?, string?_quote]
    simp [hcolon, hskip, hx, (Follows.brace _).skip_eq]
  | cons m members ih =>
    obtain ⟨_ | name', y⟩ := m
    · cases (hreads (none, y) (by simp)).1
    rw [writeMembers_cons, List.length_append, List.length_cons, List.length_append,
      List.length_cons] at hfuel
    obtain ⟨fuel, rfl⟩ : ∃ n, fuel = n + 1 := ⟨fuel - 1, by omega⟩
    have hx := fun later ↦ hfirst.value?_write (depth + 1) fuel _ (by omega) (.comma later)
    have hlater := (List.forall_mem_cons.1 hreads).2
    have hsecond : Reads (shape.member (some name')) y := (hlater _ List.mem_cons_self).2
    have hnext := ih fuel hlater (by omega) hsecond
      (hsecond.starts (depth + 1)).skip_append
    have hquote (later : List Char) : skip (quote (some name') ++ later) =
      quote (some name') ++ later := rfl
    rw [writeMembers_cons, quote_append, members?, string?_quote]
    simp [hcolon, hskip, hx, hquote, (Follows.comma _).skip_eq, hnext]

theorem array_reads {items : List Json} (hopen : ∀ count, shape.isFull count = false)
    (hreads : ∀ index x, items[index]? = some x → Reads (shape.item index) x) :
    Reads shape (array items) := by
  cases items with
  | nil => exact .of_succ (fun _ ↦ ⟨'[', _, rfl, rfl, by decide⟩) fun _ _ _ _ _ ↦ rfl
  | cons x items =>
    refine .of_succ (fun _ ↦ ⟨'[', _, rfl, rfl, by decide⟩) fun depth fuel rest hfuel _ ↦ ?_
    rw [write_array, List.length_cons] at hfuel
    have hstarts := (hreads 0 x rfl).starts (depth + 1)
    have hskip := hstarts.skip_append (writeItems .compact depth items ++ rest)
    have hitems := items?_write 0 depth fuel hopen
      (fun k y hy ↦ by rw [Nat.zero_add]; exact hreads k y hy) (by omega) rest
    obtain ⟨c, tail, hwrite, -, hc⟩ := hstarts
    rw [hwrite, List.cons_append] at hskip hitems
    rw [write_array, List.cons_append, List.append_assoc, hwrite, List.cons_append]
    simp [value?, hskip, hc, hitems]

theorem object_reads {members : List (Option String × Json)}
    (hreads : ∀ m ∈ members, m.1.isSome ∧ Reads (shape.member m.1) m.2) :
    Reads shape (object members) := by
  rcases members with _ | ⟨⟨_ | name, x⟩, members⟩
  · exact .of_succ (fun _ ↦ ⟨'\x7b', _, rfl, rfl, by decide⟩) fun _ _ _ _ _ ↦ rfl
  · cases (hreads (none, x) List.mem_cons_self).1
  · refine .of_succ (fun _ ↦ ⟨'\x7b', _, rfl, rfl, by decide⟩) fun depth fuel rest hfuel _ ↦ ?_
    rw [write_object, List.length_cons, List.length_append, List.length_cons] at hfuel
    have hmembers := members?_write depth fuel hreads (by omega) rest
    rw [quote_append] at hmembers
    have hskip (later : List Char) : skip ('"' :: later) = '"' :: later := rfl
    rw [write_object, List.cons_append, List.append_assoc, quote_append]
    simp [value?, hskip, hmembers]

/-- Documents that are written without loss and expected in full. -/
inductive Printable : Shape → Json → Prop
  | null (shape : Shape) : Printable shape null
  | bool (shape : Shape) (b : Bool) : Printable shape (bool b)
  | nat (shape : Shape) (n : Nat) : Printable shape (nat n)
  | text (shape : Shape) (s : String) : Printable shape (text s)
  | array {shape : Shape} {items : List Json} (hopen : ∀ count, shape.isFull count = false)
      (hitems : ∀ index x, items[index]? = some x → Printable (shape.item index) x) :
      Printable shape (array items)
  | object {shape : Shape} {members : List (Option String × Json)}
      (hnames : ∀ m ∈ members, m.1.isSome)
      (hmembers : ∀ m ∈ members, Printable (shape.member m.1) m.2) :
      Printable shape (object members)

theorem Printable.reads {j : Json} (h : Printable shape j) : Reads shape j := by
  induction h with
  | null => exact null_reads
  | bool _ b => exact bool_reads b
  | nat _ n => exact nat_reads n
  | text _ s => exact text_reads s
  | array hopen _ ih => exact array_reads hopen ih
  | object hnames _ ih => exact object_reads fun m hm ↦ ⟨hnames m hm, ih m hm⟩

/-- The text of a document is read as the document. -/
theorem Printable.ofText?_compact {j : Json} (h : Printable shape j) :
    ofText? shape j.compact = some j := by
  have hskip := (h.reads.starts 0).skip_append []
  have hvalue := h.reads.value?_write 0 (2 * (write .compact 0 j).length + 2) [] (by omega) .nil
  rw [List.append_nil] at hskip hvalue
  simp only [ofText?, parse?, compact, String.toList_ofList, hskip, hvalue]
  rfl

end TokenBridge.Json
