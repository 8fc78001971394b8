/-!
# Plain text

A terminal takes some characters for commands: single controls, and sequences that begin with the
escape character. A text is plain without them; of the controls only those that lay a text out are
kept.

A sequence is left out up to the character that ends it. An escape or control sequence that is
broken by a layout control lets the text behind that through, up to the next control, where the
sequence goes on.
-/

set_option autoImplicit false

namespace VmHandler.Text

/-! ## Characters -/

/-- Whether a character is a control that lays a text out: a tab, or the end of a line or a page. -/
def isLayout (c : Char) : Bool := c = '\t' || c = '\n' || c = '\x0c' || c = '\r'

/-- Whether a character is one of the ASCII controls. -/
def isControl (c : Char) : Bool := c.toNat < 0x20 || c.toNat = 0x7F

/-- Whether a character stands between two others in the order of code points, or is one of
them. -/
def within (first last c : Char) : Bool := first ≤ c && c ≤ last

/-- Whether the octet that terminates a string, `0x9C`, continues the encoding of a character. -/
def hasTerminator (c : Char) : Bool :=
  let n := c.toNat
  (0x80 ≤ n && n % 64 = 0x1C) || (0x800 ≤ n && n / 64 % 64 = 0x1C)
    || (0x10000 ≤ n && n / 4096 % 64 = 0x1C)

/-! ## Sequences -/

/-- What the next character belongs to. -/
inductive Mode where
  /-- the text -/
  | text
  /-- a sequence of which only the escape character has been seen -/
  | escape
  /-- an escape sequence of several characters -/
  | longEscape
  /-- a control sequence -/
  | control
  /-- a command to the system -/
  | command
  /-- a device string, in front of its parameters -/
  | device
  /-- a device string, in its parameters -/
  | deviceParameters
  /-- a device string, behind its parameters -/
  | deviceFinal
  /-- a string that goes on up to its terminator -/
  | string
  deriving DecidableEq, Repr

namespace Mode

/-- What the character behind `c` belongs to, if `c` belongs to this. -/
def next (m : Mode) (c : Char) : Mode :=
  if c = '\x1b' then escape
  else if c = '\x18' || c = '\x1a' then text
  else
    match m with
    | text => text
    | escape =>
        if c = '[' then control
        else if c = ']' then command
        else if c = 'P' then device
        else if c = 'X' || c = '^' || c = '_' then string
        else if within ' ' '/' c then longEscape
        else if within '0' '~' c then text
        else escape
    | longEscape => if within '0' '~' c then text else longEscape
    | control => if within '@' '~' c then text else control
    | command => if c = '\x07' then text else command
    | device =>
        if within ' ' '/' c then deviceFinal
        else if within '0' '?' c then deviceParameters
        else if within '@' '~' c then string
        else device
    | deviceParameters =>
        if within ' ' '/' c then deviceFinal
        else if within '<' '~' c then string
        else deviceParameters
    | deviceFinal => if within '0' '~' c then string else deviceFinal
    | string => if hasTerminator c then text else string

/-- Whether a character that belongs to this is kept. -/
def keeps (m : Mode) (c : Char) : Bool :=
  match m with
  | text => !isControl c || isLayout c
  | escape | longEscape | control => isLayout c
  | command | device | deviceParameters | deviceFinal | string => false

end Mode

/-! ## Texts -/

/-- The characters that are kept. While `isOpen` holds, characters are taken for text although they
belong to a sequence; the next control takes the sequence up again, and a character beyond ASCII
ends it. -/
def keptFrom (isOpen : Bool) (m : Mode) : List Char → List Char
  | [] => []
  | c :: cs =>
      if isOpen then
        if Mode.text.keeps c then c :: keptFrom true (if c.toNat < 0x80 then m else .text) cs
        else keptFrom false (m.next c) cs
      else if m.keeps c then c :: keptFrom true (m.next c) cs
      else keptFrom false (m.next c) cs

/-- The text without controls and sequences. -/
def plain (s : String) : String := String.ofList (keptFrom false .text s.toList)

/-! ## Text that is plain already -/

theorem keptFrom_text {cs : List Char} (h : ∀ c ∈ cs, Mode.text.keeps c = true) (isOpen : Bool) :
    keptFrom isOpen .text cs = cs := by
  induction cs generalizing isOpen with
  | nil => rfl
  | cons c cs ih =>
    have hc : Mode.text.keeps c = true := h c (List.mem_cons_self ..)
    have hcs : ∀ d ∈ cs, Mode.text.keeps d = true := fun d hd => h d (List.mem_cons_of_mem _ hd)
    have hnext : Mode.text.next c = .text := by
      simp only [Mode.keeps, isControl, Bool.or_eq_true, Bool.not_eq_true'] at hc
      unfold Mode.next
      split
      · rename_i he
        subst he
        simp [isLayout] at hc
      · split <;> rfl
    cases isOpen <;> simp [keptFrom, hc, hnext, ih hcs]

/-- A text of which every character is kept is plain. -/
theorem plain_eq_self {s : String} (h : ∀ c ∈ s.toList, Mode.text.keeps c = true) :
    plain s = s := by
  rw [plain, keptFrom_text h, String.ofList_toList]

end VmHandler.Text
