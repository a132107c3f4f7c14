import ExamPaper.Proofs.Template.Scanning

/-!
# Reading bytes

A scanner keeps what it has read in layers. `ByteScanner` keeps nothing but offsets into the UTF-8
encoding of the text: where it is to read on, and where each open marker begins. It looks at one byte
after another, and passes over the byte after a backslash, be it a whole character or the first byte
of one.

> Both find the same (`ByteScanner.next_ofScanner`): the directive that the scanner takes out begins
> and ends where the bytes say, and so do the markers that stay open.
-/

namespace ExamPaper

namespace Text

/-! ## Sizes and encodings -/

/-- The size is summed up from the left. -/
theorem foldl_utf8Size (cs : List Char) (n : Nat) :
    cs.foldl (fun n c => n + c.utf8Size) n = n + utf8Size cs := by
  unfold utf8Size
  induction cs generalizing n with
  | nil => rfl
  | cons c cs ih => rw [List.foldl_cons, List.foldl_cons, ih, ih (0 + c.utf8Size)]; omega

@[simp] theorem utf8Size_nil : utf8Size [] = 0 := rfl

@[simp] theorem utf8Size_cons (c : Char) (cs : List Char) :
    utf8Size (c :: cs) = c.utf8Size + utf8Size cs := by
  rw [utf8Size, List.foldl_cons, foldl_utf8Size, Nat.zero_add]

@[simp] theorem utf8Size_append (cs ds : List Char) :
    utf8Size (cs ++ ds) = utf8Size cs + utf8Size ds := by
  rw [utf8Size, List.foldl_append, foldl_utf8Size]
  rfl

/-- The bytes of a text in UTF-8. -/
def bytes (cs : List Char) : List UInt8 := cs.flatMap String.utf8EncodeChar

theorem bytes_cons (c : Char) (cs : List Char) :
    bytes (c :: cs) = String.utf8EncodeChar c ++ bytes cs := rfl

theorem bytes_append (cs ds : List Char) : bytes (cs ++ ds) = bytes cs ++ bytes ds :=
  List.flatMap_append

/-- A text has as many bytes as its size says. -/
@[simp] theorem length_bytes (cs : List Char) : (bytes cs).length = utf8Size cs := by
  induction cs with
  | nil => rfl
  | cons c cs ih =>
    rw [bytes_cons, List.length_append, String.length_utf8EncodeChar, ih, utf8Size_cons]

/-- Without the bytes of its beginning, a text has the bytes of the rest of it. -/
theorem drop_bytes (cs ds : List Char) : (bytes (cs ++ ds)).drop (utf8Size cs) = bytes ds := by
  rw [bytes_append, ← length_bytes, List.drop_left]

/-- A byte below 128 stands for a character of its own. -/
theorem eq_singleton_of_mem {c : Char} {b : UInt8} (h : b ∈ String.utf8EncodeChar c)
    (hb : b.toNat < 128) : String.utf8EncodeChar c = [b] ∧ c.toNat = b.toNat := by
  unfold String.utf8EncodeChar at h ⊢
  dsimp only at h ⊢
  split at h
  · rename_i hv
    obtain rfl := List.mem_singleton.mp h
    rw [if_pos hv]
    refine ⟨rfl, ?_⟩
    rw [UInt8.toNat_ofNat']
    show c.val.toNat = _
    omega
  · -- the bytes of a longer encoding all have their highest bit set
    exfalso
    split at h
    · simp only [List.mem_cons, List.not_mem_nil, or_false] at h
      rcases h with rfl | rfl <;> rw [UInt8.toNat_ofNat'] at hb <;> omega
    · split at h <;> simp only [List.mem_cons, List.not_mem_nil, or_false] at h
      · rcases h with rfl | rfl | rfl <;> rw [UInt8.toNat_ofNat'] at hb <;> omega
      · rcases h with rfl | rfl | rfl | rfl <;> rw [UInt8.toNat_ofNat'] at hb <;> omega

/-- Only the first byte of a character can be below 128. -/
theorem exists_cons_utf8EncodeChar (c : Char) :
    ∃ b tail, String.utf8EncodeChar c = b :: tail ∧ ∀ t ∈ tail, 128 ≤ t.toNat := by
  have hne : String.utf8EncodeChar c ≠ [] := by
    intro h
    have hsize := String.length_utf8EncodeChar c
    rw [h] at hsize
    exact absurd hsize.symm (Nat.ne_of_gt c.utf8Size_pos)
  obtain ⟨b, tail, h⟩ := List.exists_cons_of_ne_nil hne
  refine ⟨b, tail, h, fun t ht => Nat.le_of_not_lt fun hlt => ?_⟩
  have hsingle := (eq_singleton_of_mem (h ▸ List.mem_cons_of_mem b ht) hlt).1
  rw [h] at hsingle
  obtain ⟨-, rfl⟩ := List.cons.inj hsingle
  exact absurd ht List.not_mem_nil

/-- A text begins with a byte below 128 if its first character is that byte. -/
theorem head?_of_head?_bytes {cs : List Char} {b : UInt8} (h : (bytes cs).head? = some b)
    (hb : b.toNat < 128) : ∃ c, cs.head? = some c ∧ c.toNat = b.toNat := by
  cases cs with
  | nil => exact absurd h (by simp [bytes])
  | cons c cs =>
    obtain ⟨first, tail, hbytes, -⟩ := exists_cons_utf8EncodeChar c
    rw [bytes_cons, hbytes] at h
    obtain rfl : first = b := Option.some.inj h
    exact ⟨c, rfl, (eq_singleton_of_mem (hbytes ▸ List.mem_cons_self) hb).2⟩

end Text

namespace Template

/-- A scanner that keeps no text: the offset at which it is to read on, and those of the open
markers, the innermost first. -/
structure ByteScanner where
  pos : Nat := 0
  opens : List Nat := []
  deriving DecidableEq, Repr

/-- What comes next in a text, told by offsets. -/
inductive ByteFinding where
  /-- A directive, and the scanner that goes on where it began. -/
  | directive (span : Scanner.Span) (scanner : ByteScanner)
  | finished
  /-- A marker that is never closed. -/
  | unterminated (start : Nat)
  deriving DecidableEq, Repr

namespace ByteScanner

/-- Nothing more is found when all bytes are read. -/
def atEnd : List Nat → ByteFinding
  | [] => .finished
  | start :: _ => .unterminated start

/-- Reads the bytes from offset `i` on to the end of the next directive or of the text. A byte that
no other follows is neither a marker nor an escape. -/
def scan (i : Nat) (opens : List Nat) : List UInt8 → ByteFinding
  | [] => atEnd opens
  | [_] => atEnd opens
  | b :: c :: rest =>
    if b = 0x5C then scan (i + 2) opens rest
    else if b = 0x28 ∧ c = 0x28 then scan (i + 2) (i :: opens) rest
    else if b = 0x29 ∧ c = 0x29 then
      match opens with
      | [] => scan (i + 1) [] (c :: rest)
      | start :: opens => .directive { start, stop := i + 2 } { pos := start, opens }
    else scan (i + 1) opens (c :: rest)

/-- The next directive of a text. -/
def next (s : ByteScanner) (text : List Char) : ByteFinding :=
  scan s.pos s.opens ((Text.bytes text).drop s.pos)

/-- The offsets in the text of a scanner. -/
def ofScanner (s : Scanner) : ByteScanner where
  pos := s.position
  opens := Scanner.openPositions s.outer s.layers

/-! ## Bytes read in pieces -/

variable {i : Nat} {opens : List Nat}

/-- What is done at a byte depends on it and on the one after it. -/
theorem scan_cons_cons (b c : UInt8) (rest : List UInt8) :
    scan i opens (b :: c :: rest) =
      if b = 0x5C then scan (i + 2) opens rest
      else if b = 0x28 ∧ c = 0x28 then scan (i + 2) (i :: opens) rest
      else if b = 0x29 ∧ c = 0x29 then
        match opens with
        | [] => scan (i + 1) [] (c :: rest)
        | start :: opens => .directive { start, stop := i + 2 } { pos := start, opens }
      else scan (i + 1) opens (c :: rest) := by
  rw [scan.eq_def]

/-- A byte that is not the start of a marker or an escape is passed over. -/
theorem scan_pass {b : UInt8} (hescape : b ≠ 0x5C) {rest : List UInt8}
    (hopen : b = 0x28 → rest.head? ≠ some 0x28) (hclose : b = 0x29 → rest.head? ≠ some 0x29) :
    scan i opens (b :: rest) = scan (i + 1) opens rest := by
  cases rest with
  | nil => rfl
  | cons c rest =>
    rw [scan_cons_cons, if_neg hescape, if_neg, if_neg]
    · rintro ⟨hb, rfl⟩
      exact hclose hb rfl
    · rintro ⟨hb, rfl⟩
      exact hopen hb rfl

/-- Bytes that are no ASCII characters are passed over. -/
theorem scan_pass_all {bs : List UInt8} (h : ∀ b ∈ bs, b ≠ 0x5C ∧ b ≠ 0x28 ∧ b ≠ 0x29)
    (rest : List UInt8) : scan i opens (bs ++ rest) = scan (i + bs.length) opens rest := by
  induction bs generalizing i with
  | nil => rfl
  | cons b bs ih =>
    obtain ⟨⟨hescape, hopen, hclose⟩, hbs⟩ := List.forall_mem_cons.mp h
    rw [List.cons_append,
      scan_pass hescape (fun hb => absurd hb hopen) (fun hb => absurd hb hclose), ih hbs,
      List.length_cons]
    congr 1
    omega

/-- Closing parentheses that close nothing are passed over. -/
theorem scan_stray (rest : List UInt8) : scan i [] (0x29 :: rest) = scan (i + 1) [] rest := by
  cases rest with
  | nil => rfl
  | cons c rest =>
    have hopen : ¬ ((0x29 : UInt8) = 0x28 ∧ c = 0x28) := fun h => absurd h.1 (by decide)
    rw [scan_cons_cons, if_neg (by decide), if_neg hopen]
    split <;> rfl

/-- An escape is stepped over, also if the escaped character has several bytes. -/
theorem scan_escape (c : Char) (cs : List Char) :
    scan i opens (Text.bytes ('\\' :: c :: cs)) =
      scan (i + Text.utf8Size ['\\', c]) opens (Text.bytes cs) := by
  obtain ⟨b, tail, hbytes, htail⟩ := Text.exists_cons_utf8EncodeChar c
  have hsize : (b :: tail).length = c.utf8Size := hbytes ▸ String.length_utf8EncodeChar c
  have hmarks : ∀ t ∈ tail, t ≠ 0x5C ∧ t ≠ 0x28 ∧ t ≠ 0x29 := by
    intro t ht
    have hlarge := htail t ht
    refine ⟨?_, ?_, ?_⟩ <;> (rintro rfl; exact absurd hlarge (by decide))
  have hfirst : Text.bytes ('\\' :: c :: cs) = 0x5C :: b :: (tail ++ Text.bytes cs) := by
    rw [Text.bytes_cons, Text.bytes_cons, hbytes]
    rfl
  -- the first byte of the character is skipped, and the others mean nothing
  rw [hfirst, scan_cons_cons, if_pos rfl, scan_pass_all hmarks]
  congr 1
  simp only [List.length_cons] at hsize
  simp only [Text.utf8Size_cons, Text.utf8Size_nil, ← hsize]
  show i + 2 + tail.length = i + (1 + (tail.length + 1 + 0))
  omega

/-- A character that is read on its own is stepped over byte by byte. -/
theorem scan_lone {c : Char} {cs : List Char} (h : Scanner.Lone c cs) :
    scan i opens (Text.bytes (c :: cs)) = scan (i + Text.utf8Size [c]) opens (Text.bytes cs) := by
  have hhead : ∀ {b : UInt8} {d : Char}, b.toNat < 128 → d.toNat = b.toNat → cs.head? ≠ some d →
      (Text.bytes cs).head? ≠ some b := by
    intro b d hb hd hne heq
    obtain ⟨first, hfirst, hnat⟩ := Text.head?_of_head?_bytes heq hb
    exact hne (hfirst.trans (congrArg some (Char.toNat_inj.mp (hnat.trans hd.symm))))
  by_cases hescape : c = '\\'
  · -- a lone backslash is the last character
    obtain rfl := h.1 hescape
    subst hescape
    rfl
  by_cases hopen : c = '('
  · have hne := hhead (b := 0x28) (by decide) rfl (h.2.1 hopen)
    subst hopen
    exact scan_pass (by decide) (fun _ => hne) (fun hb => absurd hb (by decide))
  by_cases hclose : c = ')'
  · have hne := hhead (b := 0x29) (by decide) rfl (h.2.2 hclose)
    subst hclose
    exact scan_pass (by decide) (fun hb => absurd hb (by decide)) (fun _ => hne)
  -- none of the bytes of another character is that of a mark
  have hmarks : ∀ b ∈ String.utf8EncodeChar c, b ≠ 0x5C ∧ b ≠ 0x28 ∧ b ≠ 0x29 := by
    intro b hb
    have hchar : ∀ d : Char, c ≠ d → d.toNat < 128 → b ≠ UInt8.ofNat d.toNat := by
      rintro d hne hd rfl
      have hnat : (UInt8.ofNat d.toNat).toNat = d.toNat := by rw [UInt8.toNat_ofNat']; omega
      exact hne (Char.toNat_inj.mp ((Text.eq_singleton_of_mem hb (by omega)).2.trans hnat))
    exact ⟨hchar '\\' hescape (by decide), hchar '(' hopen (by decide),
      hchar ')' hclose (by decide)⟩
  rw [Text.bytes_cons, scan_pass_all hmarks, String.length_utf8EncodeChar, Text.utf8Size_cons,
    Text.utf8Size_nil, Nat.add_zero]

/-! ## Both scanners find the same -/

/-- Characters that are read move the position on by their bytes. -/
theorem ofScanner_advance (cs : List Char) (s : Scanner) :
    ofScanner (s.advance cs) =
      ⟨(ofScanner s).pos + Text.utf8Size cs, (ofScanner s).opens⟩ := by
  have hpos : (s.advance cs).position = s.position + Text.utf8Size cs := by
    unfold Scanner.position
    rw [Scanner.readText_advance, Text.utf8Size_append]
  unfold ofScanner
  rw [hpos]
  obtain ⟨outer, layers, rest⟩ := s
  cases layers <;> rfl

/-- Where a scanner stands that has a marker open. -/
theorem ofScanner_layer (outer layer : List Char) (layers : List (List Char)) (rest : List Char) :
    let inner : Scanner := ⟨outer, layers, rest⟩
    ofScanner ⟨outer, layer :: layers, rest⟩ =
      ⟨inner.position + Text.utf8Size layer.reverse + 2,
        inner.position :: Scanner.openPositions outer layers⟩ := by
  have hpos : Text.utf8Size (outer.reverse ++ Scanner.openText (layer :: layers)) =
      Text.utf8Size (outer.reverse ++ Scanner.openText layers) + Text.utf8Size layer.reverse + 2 := by
    rw [Scanner.openText, ← List.append_assoc, Text.utf8Size_append, Text.utf8Size_cons,
      Text.utf8Size_cons]
    show _ + (1 + (1 + Text.utf8Size layer.reverse)) = _
    omega
  exact congrArg (ByteScanner.mk · _) hpos

/-- A marker that is opened leaves its position behind. -/
theorem ofScanner_opened (s : Scanner) :
    ofScanner s.opened = ⟨(ofScanner s).pos + 2, (ofScanner s).pos :: (ofScanner s).opens⟩ :=
  ofScanner_layer s.outer [] s.layers s.rest

end ByteScanner

/-- A finding in a text, told by offsets. -/
def Finding.inBytes (text : List Char) : Finding → ByteFinding
  | .directive body s => .directive (s.span body) (.ofScanner s)
  | .finished _ => .finished
  | .unterminated rest => .unterminated (Text.utf8Size text - Text.utf8Size rest)

namespace ByteScanner

/-- The search through the bytes finds what the search through the characters finds, piece by piece.
-/
theorem scan_of_pieces {rest : List Char} (h : Scanner.Pieces rest) :
    ∀ s : Scanner, scan (ofScanner s).pos (ofScanner s).opens (Text.bytes rest) =
      (Scanner.next { s with rest }).inBytes (s.readText ++ rest) := by
  -- every piece moves both on by the same bytes, which `readText` takes in
  induction h with
  | done =>
    intro s
    obtain ⟨outer, layers, _⟩ := s
    cases layers with
    | nil => rfl
    | cons layer layers =>
      show ByteFinding.unterminated _ = ByteFinding.unterminated _
      congr 1
      simp only [Scanner.readText, Scanner.openText, Text.utf8Size_append, List.append_nil]
      omega
  | @escape c rest _ ih =>
    intro s
    have hadvanced := ih (s.advance ['\\', c])
    rw [ofScanner_advance, Scanner.readText_advance, List.append_assoc,
      ← Scanner.advance_withRest, ← Scanner.next_escape] at hadvanced
    exact (scan_escape c rest).trans hadvanced
  | @opening rest _ ih =>
    intro s
    have hopened := ih s.opened
    rw [ofScanner_opened, Scanner.readText_opened, List.append_assoc] at hopened
    refine Eq.trans ?_ (hopened.trans ?_)
    · show scan _ _ (0x28 :: 0x28 :: Text.bytes rest) = _
      rw [scan_cons_cons, if_neg (by decide), if_pos (by decide)]
    · rw [Scanner.next_open]
      rfl
  | @closing rest _ ih =>
    intro s
    cases hlayers : s.layers with
    | nil =>
      -- with no marker open both are passed over, one after the other
      have hlayers' : (s.advance [')']).layers = [] :=
        (Scanner.layers_advance_eq_nil _ _).mpr hlayers
      have hadvanced := ih ((s.advance [')']).advance [')'])
      have hopens : (ofScanner s).opens = [] := by
        unfold ofScanner
        rw [hlayers]
        rfl
      rw [ofScanner_advance, ofScanner_advance, hopens, Scanner.readText_advance,
        Scanner.readText_advance, List.append_assoc, List.append_assoc,
        ← Scanner.next_stray_of_layers hlayers', ← Scanner.next_stray_of_layers hlayers,
        hlayers] at hadvanced
      rw [hopens]
      exact ((scan_stray _).trans (scan_stray _)).trans hadvanced
    | cons layer layers =>
      -- the innermost marker is closed where it was opened
      have hlayer := ofScanner_layer s.outer layer layers s.rest
      rw [← hlayers] at hlayer
      rw [Scanner.next_close, hlayer]
      show scan _ _ (0x29 :: 0x29 :: Text.bytes rest) = _
      rw [scan_cons_cons, if_neg (by decide), if_neg (by decide), if_pos (by decide)]
      rfl
  | @lone c rest hlone _ ih =>
    intro s
    have hadvanced := ih (s.advance [c])
    rw [ofScanner_advance, Scanner.readText_advance, List.append_assoc,
      ← Scanner.advance_withRest, ← Scanner.next_lone hlone] at hadvanced
    exact (scan_lone hlone).trans hadvanced

/-- **Reading bytes.** A scanner of bytes finds in a text what a scanner of characters finds that
stands at the same place. -/
theorem next_ofScanner (s : Scanner) : (ofScanner s).next s.text = s.next.inBytes s.text := by
  have hrest : (Text.bytes s.text).drop (ofScanner s).pos = Text.bytes s.rest :=
    Text.drop_bytes s.readText s.rest
  unfold next
  rw [hrest]
  exact scan_of_pieces (Scanner.pieces s.rest) s

end ByteScanner

end Template

end ExamPaper
