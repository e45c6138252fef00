namespace PanZoom.Decimal

abbrev Digit := Fin 10

def Digit.zero : Digit :=
  0

def digitChar (d : Digit) : Char :=
  Char.ofNat (48 + d.val)

def digit? (c : Char) : Option Digit :=
  if h : 48 ≤ c.toNat ∧ c.toNat < 58 then some ⟨c.toNat - 48, by omega⟩ else none

/-- The number with the given digits, the leading one first. -/
def ofDigits (ds : List Digit) : Nat :=
  ds.foldl (fun n (d : Digit) => 10 * n + d.val) 0

/-- The digits of a number before those of `done`. -/
def digitsBefore (n : Nat) (done : List Digit) : List Digit :=
  if h : n < 10 then ⟨n, h⟩ :: done
  else digitsBefore (n / 10) (⟨n % 10, Nat.mod_lt n (by decide)⟩ :: done)

/-- The digits of a number, the leading one first. Zero has one digit. -/
def digitsOf (n : Nat) : List Digit :=
  digitsBefore n []

def digitText (ds : List Digit) : List Char :=
  ds.map digitChar

def natText (n : Nat) : List Char :=
  digitText (digitsOf n)

def takeDigits : List Char → List Digit × List Char
  | [] => ([], [])
  | c :: rest =>
    match digit? c with
    | some d =>
        let (ds, after) := takeDigits rest
        (d :: ds, after)
    | none => ([], c :: rest)

/-- No character is lost. -/
theorem length_takeDigits (text : List Char) :
    (takeDigits text).1.length + (takeDigits text).2.length = text.length := by
  fun_induction takeDigits text with
  | case1 => rfl
  | case2 c rest d _ ds after h ih => simp_all; omega
  | case3 => simp

end PanZoom.Decimal
