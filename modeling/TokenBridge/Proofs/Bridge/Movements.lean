import TokenBridge.Proofs.Bridge.Escrow
import TokenBridge.Proofs.Bridge.Refusals
import TokenBridge.Proofs.Custody.Conservation

namespace TokenBridge

inductive Movement where
  | mint (m : Mint)
  | transfer (token sender recipient : Address) (amount : UInt256)
  | execute (x : Executor) (registry : Registry) (batch : Batch) (signatures : SignatureSet)
    (custodian relayer : Address)
  | call (b : Bridge Balances) (c : Call)

namespace Movement

def apply (funds : Balances) : Movement → Balances
  | mint m => m.apply funds
  | transfer token sender recipient amount => (funds.transfer token sender recipient amount).2
  | execute x registry batch signatures custodian relayer =>
    (x.execute registry batch signatures funds custodian relayer).2.2
  | call b c => ({ b with custody := funds }.call c).2.custody

def minted (token : Address) (funds : Balances) : Movement → Nat
  | mint m =>
    if (funds.mint m.token m.holder m.amount).1 = .ok () ∧ m.token = token then m.amount.toNat else 0
  | _ => 0

/-- A transfer of the token, on its own or in a deposit or a batch, fails because the recipient has
no room for the amount. -/
def Overflows (token : Address) (funds : Balances) : Movement → Prop
  | mint _ => False
  | transfer token' sender recipient amount =>
    ∃ holder, (funds.transfer token' sender recipient amount).1 =
      .error (.balanceOverflow token holder)
  | execute x registry batch signatures custodian relayer =>
    ∃ holder, (x.execute registry batch signatures funds custodian relayer).1 =
      .error (.custody (.balanceOverflow token holder))
  | call b c =>
    ∃ holder, ({ b with custody := funds }.call c).1 =
      .error (.custody (.balanceOverflow token holder))

def run (funds : Balances) (movements : List Movement) : Balances := movements.foldl apply funds

def mintedBy (token : Address) (funds : Balances) : List Movement → Nat
  | [] => 0
  | m :: rest => m.minted token funds + mintedBy token (m.apply funds) rest

def ofStep (b : Bridge Balances) : Step Movement → List Movement
  | .call c => [.call b c]
  | .outside m => [m]
  | .probe | .takeEvents => []

/-- How the funds of a bridge are moved in the course of a run, by it and around it. -/
def ofSteps (b : Bridge Balances) : List (Step Movement) → List Movement
  | [] => []
  | s :: rest => ofStep b s ++ ofSteps (b.perform (flip apply) s) rest

end Movement

theorem Executor.supply_execute (x : Executor) (registry : Registry) (batch : Batch)
    (signatures : SignatureSet) (funds : Balances) (custodian relayer token : Address) :
    (x.execute registry batch signatures funds custodian relayer).2.2.supply token =
      funds.supply token := by
  obtain ⟨transfers, hleft, -⟩ :=
    x.exists_transferAll registry batch signatures funds custodian relayer
  rw [hleft, Balances.supply_transferAll_eq]

/-- No call changes how much there is of a token. -/
theorem Bridge.supply_call (b : Bridge Balances) (c : Call) (token : Address) :
    (b.call c).2.custody.supply token = b.custody.supply token := by
  cases ho : (b.call c).1 with
  | error e => rw [call_of_error ho]
  | ok answer =>
    have he := effect_of_ok ho
    cases hp : c.payment? with
    | some p =>
      obtain ⟨state, executor, _, _, executed⟩ := he.of_payment hp
      have hsupply := state.executor.supply_execute state.registry p.batch p.signatures b.custody
        b.account p.relayer token
      rwa [executed] at hsupply
    | none =>
      generalize (b.call c).2 = b' at he
      cases he with
      | @deposit sender token' _ amount _ _ _ _ _ _ _ _ _ moved =>
        have hsupply := b.custody.supply_transfer_eq token' sender b.account amount token
        rwa [← Balances.custody_transfer, moved] at hsupply
      | submitBatch => cases hp
      | executeBatch => cases hp
      | _ => rfl

namespace Movement

open Bridge

variable {funds : Balances} {token : Address}

/-- Of all movements only mints bring tokens into being. -/
theorem supply_apply (funds : Balances) (m : Movement) (token : Address) :
    (m.apply funds).supply token = funds.supply token + m.minted token funds := by
  cases m with
  | mint m =>
    rcases hm : funds.mint m.token m.holder m.amount with ⟨e | _, after⟩
    · obtain rfl := Balances.mint_of_error hm
      simp [apply, Mint.apply, minted, hm]
    · have hsupply := Balances.supply_mint_of_ok hm token
      simp [apply, Mint.apply, minted, hm, hsupply]
  | transfer => exact funds.supply_transfer_eq ..
  | execute x => exact x.supply_execute ..
  | call b => exact Bridge.supply_call ..

theorem not_overflows {m : Movement} (hsupply : funds.supply token < UInt256.size) :
    ¬ m.Overflows token funds := by
  cases m with
  | mint => exact id
  | transfer =>
    rintro ⟨holder, h⟩
    exact Balances.transfer_ne_overflow hsupply h
  | execute x registry batch signatures custodian relayer =>
    rintro ⟨holder, h⟩
    obtain ⟨transfers, -, hrefused⟩ :=
      x.exists_transferAll registry batch signatures funds custodian relayer
    exact Balances.transferAll_ne_overflow hsupply (hrefused _ h)
  | call =>
    rintro ⟨holder, h⟩
    obtain ⟨_, _, transfers, htransfers⟩ := Bridge.transferAll_of_call_error h
    exact Balances.transferAll_ne_overflow hsupply htransfers

theorem supply_run (funds : Balances) (movements : List Movement) (token : Address) :
    (run funds movements).supply token = funds.supply token + mintedBy token funds movements := by
  induction movements generalizing funds with
  | nil => rfl
  | cons m rest ih =>
    have hfirst := supply_apply funds m token
    have hrest := ih (m.apply funds)
    rw [mintedBy]
    rw [run] at hrest ⊢
    rw [List.foldl_cons]
    omega

theorem mintedBy_append (funds : Balances) (first second : List Movement) (token : Address) :
    mintedBy token funds (first ++ second) =
      mintedBy token funds first + mintedBy token (run funds first) second := by
  induction first generalizing funds with
  | nil => exact (Nat.zero_add _).symm
  | cons m rest ih =>
    have hrest := ih (m.apply funds)
    rw [List.cons_append, mintedBy, mintedBy, hrest, Nat.add_assoc]
    rfl

theorem run_append (funds : Balances) (first second : List Movement) :
    run funds (first ++ second) = run (run funds first) second := List.foldl_append

theorem custody_perform (b : Bridge Balances) (s : Step Movement) :
    (b.perform (flip apply) s).custody = run b.custody (ofStep b s) := by
  cases s <;> rfl

theorem custody_reach (b : Bridge Balances) (steps : List (Step Movement)) :
    (b.reach (flip apply) steps).custody = run b.custody (ofSteps b steps) := by
  induction steps generalizing b with
  | nil => rfl
  | cons s rest ih => rw [reach_cons, ih, ofSteps, run_append, custody_perform]

/-- However funds were moved, all holders of a token have what was minted of it. A mint or a
transfer that fails changes nothing, and none fails for want of room for a token of which no more
was minted than fits into one balance. A bridge moves funds in no other ways while it runs. -/
theorem supply_conserved (movements : List Movement) (token : Address) :
    {holder | ((run .empty movements).balance token holder).toNat ≠ 0}.Finite ∧
      ∑ᶠ holder, ((run .empty movements).balance token holder).toNat =
        mintedBy token .empty movements ∧
      (∀ (funds : Balances) token holder amount e, (funds.mint token holder amount).1 = .error e →
        (funds.mint token holder amount).2 = funds) ∧
      (∀ (funds : Balances) token sender recipient amount e,
        (funds.transfer token sender recipient amount).1 = .error e →
          (funds.transfer token sender recipient amount).2 = funds) ∧
      (mintedBy token .empty movements < UInt256.size →
        ∀ past m rest, movements = past ++ m :: rest → ¬ m.Overflows token (run .empty past)) ∧
      ∀ (b : Bridge Balances) steps, b.custody = run .empty movements →
        (b.reach (flip apply) steps).custody = run .empty (movements ++ ofSteps b steps) := by
  have hsupply (movements : List Movement) :
      (run .empty movements).supply token = mintedBy token .empty movements := by
    rw [supply_run, Balances.supply_empty, Nat.zero_add]
  refine ⟨Balances.finite_holders _ token, ?_, ?_, ?_, ?_, ?_⟩
  · rw [Balances.finsum_balance, hsupply]
  · intro funds token holder amount e h
    exact Balances.mint_of_error (Prod.ext h rfl)
  · intro funds token sender recipient amount e h
    exact Balances.transfer_of_error (Prod.ext h rfl)
  · rintro hminted past m rest rfl
    -- what was minted by then is part of what is minted in all
    rw [mintedBy_append] at hminted
    exact not_overflows (by rw [hsupply]; omega)
  · intro b steps hcustody
    rw [custody_reach, hcustody, run_append]

def ferryFare : Movement := .mint ⟨ferryToken, ferryPassenger, ferryAmount⟩

def ferryBoards : Movement := .call (ferry.reach Mint.apply ferryMints) ferryDeposit

/-- The ferry's account has the fare, so that it has no room for all the tokens that can be. A
second passenger comes and pays. -/
theorem supply_conserved_ferry :
    let funds := run .empty [ferryFare, ferryBoards]
    let later : Bridge Balances := { ferry with custody := funds }
    (funds.balance ferryToken ferry.account).toNat = 100 ∧
      ∑ᶠ holder, (funds.balance ferryToken holder).toNat = 100 ∧
      (funds.mint ferryToken ferry.account ⟨UInt256.size - 1, by decide⟩).2 = funds ∧
      (funds.transfer ferryToken ferryPassenger ferryman ferryAmount).2 = funds ∧
      ¬ ferryBoards.Overflows ferryToken (run .empty [ferryFare]) ∧
      (later.reach (flip apply) [.outside ferryFare, .call ferryDeposit]).custody =
        run .empty [ferryFare, ferryBoards, ferryFare,
          .call { later with custody := ferryFare.apply funds } ferryDeposit] := by
  intro funds later
  obtain ⟨-, hsum, hmint, htransfer, hroom, hreach⟩ :=
    supply_conserved [ferryFare, ferryBoards] ferryToken
  have hminted : mintedBy ferryToken .empty [ferryFare, ferryBoards] = 100 := by decide +kernel
  refine ⟨by decide +kernel, hsum.trans hminted, ?_, ?_, ?_, ?_⟩
  · exact hmint _ _ _ _ (.balanceOverflow ferryToken ferry.account) (by decide +kernel)
  · exact htransfer _ _ _ _ _
      (.insufficientBalance ferryToken ferryPassenger .zero ferryAmount) (by decide +kernel)
  · have hfits : mintedBy ferryToken .empty [ferryFare, ferryBoards] < UInt256.size := by
      rw [hminted]
      decide
    exact hroom hfits [ferryFare] ferryBoards [] rfl
  · exact hreach later _ rfl

end Movement

end TokenBridge
