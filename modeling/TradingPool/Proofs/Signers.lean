import TradingPool.Proofs.AccountCreation
import TradingPool.Proofs.Settlement

/-! Who has to sign a list, and which programs it calls. A command is signed by one key of its roster or by
nobody, and a creation by the one who pays for it. So besides the arguments it takes the header of the pool and
the number of token accounts that are missing to tell the signers. -/
namespace TradingPool

namespace AccountMeta

variable {key : Key} {rest : List AccountMeta}

def signers (accounts : List AccountMeta) : List Key := (accounts.filter signer).map AccountMeta.key

@[simp] theorem signersPlain : signers (.plain key :: rest) = signers rest := rfl
@[simp] theorem signersWriting : signers (.writing key :: rest) = signers rest := rfl
@[simp] theorem signersSigning : signers (.signing key :: rest) = key :: signers rest := rfl
@[simp] theorem signersPaying : signers (.paying key :: rest) = key :: signers rest := rfl
@[simp] theorem signersNil : signers [] = [] := rfl

@[simp] theorem signersAppend (front back : List AccountMeta) :
    signers (front ++ back) = signers front ++ signers back := by
  simp [signers]

@[simp] theorem signersAllWriting (keys : List Key) : signers (keys.map writing) = [] := by
  simp [signers, writing]

end AccountMeta

namespace Command

def signer? : (c : Command) → c.Accounts → Option Key
  | .init, a => some (Accounts.Init.payer a)
  | .create, a => some (Accounts.Create.sourceOwner a)
  | .deposit, a => some (Accounts.Deposit.sourceOwner a)
  | .createOrder, a => some (Accounts.CreateOrder.signalProvider a)
  | .cancelOrder, a => some (Accounts.CancelOrder.signalProvider a)
  | .settleFunds, _ => none
  | .redeem, a => some (Accounts.Redeem.sourceOwner a)
  | .collectFees, _ => none

theorem signersMetas (c : Command) (accounts : c.Accounts) :
    AccountMeta.signers (c.metas accounts) = (c.signer? accounts).toList := by
  cases c with
  | init => simp [metas, Accounts.Init.metas, signer?]
  | cancelOrder | collectFees => rfl
  | create => simp [metas, Accounts.Create.metas, signer?]
  | deposit => simp [metas, Accounts.Deposit.metas, signer?]
  | createOrder => simp [metas, Accounts.CreateOrder.metas, signer?]
  | settleFunds => simp [metas, Accounts.SettleFunds.metas, signer?]
  | redeem => simp [metas, Accounts.Redeem.metas, signer?]

end Command

namespace Instruction

def signers (list : List Instruction) : List Key :=
  list.flatMap fun instruction => AccountMeta.signers instruction.accounts

@[simp] theorem signersBetween (front middle back : List Instruction) :
    signers (front ++ middle ++ back) = signers front ++ signers middle ++ signers back := by
  simp [signers]

theorem createTokenAccountSigners (tokenProgram payer address owner mint : Key) :
    AccountMeta.signers (createTokenAccount tokenProgram payer address owner mint).accounts = [payer] := rfl

theorem createAccountSigners (payer account : Key) (balance space : UInt64) (owner : Key) :
    signers [createAccount payer account balance space owner] = [payer, account] := rfl

theorem buildSigners {c : Command} {program : Key} {accounts : c.Accounts} {params : c.Params}
    {instruction : Instruction} (built : c.build program accounts params = .ok instruction) :
    signers [instruction] = (c.signer? accounts).toList := by
  obtain ⟨_, metas, _⟩ := Command.buildEqOk.1 built
  rw [signers, List.flatMap_singleton, metas, c.signersMetas]

end Instruction

namespace Workflow

open TradingPool.Instruction (signers tokenAccounts)

variable {world : World} {settings : Settings} {pool mint : Key}

theorem creationsSigners (world : World) (settings : Settings) (payer : Key) (wanted : List Holding) :
    signers (creations world settings payer wanted) = List.replicate (missing world settings wanted).length payer := by
  unfold creations signers
  rw [List.flatMap_map]
  simp only [Holding.creation, Instruction.createTokenAccountSigners]
  rw [← List.map_eq_flatMap, List.map_const']

theorem creationsPrograms (world : World) (settings : Settings) (payer : Key) (wanted : List Holding) :
    (creations world settings payer wanted).map Instruction.program =
      List.replicate (missing world settings wanted).length Programs.associatedToken := by
  unfold creations
  rw [List.map_map]
  change (missing world settings wanted).map (fun _ => Programs.associatedToken) = _
  rw [List.map_const']

/-- Those who sign, given the signal provider of the pool and whether token accounts are made. -/
def Operation.signers (provider : Key) (creating : Bool) : Operation → List Key
  | .createPool request => [request.payer, request.sourceOwner]
  | .createOrder payer _ _ openOrders => [payer, openOrders, provider]
  | .cancelOrder .. => [provider]
  | .deposit payer sourceOwner .. | .redeem payer sourceOwner .. =>
    (if creating then [payer] else []) ++ [sourceOwner]
  | .collectFees payer _ => if creating then [payer] else []
  | .settleFunds .. | .poolInfo _ | .poolBalances _ | .poolSeeds _ | .orderTracker .. => []

/-- The programs called before token accounts are made. -/
def Operation.opening (settings : Settings) : Operation → List Key
  | .createPool _ => [settings.program]
  | .createOrder .. => [Programs.system]
  | _ => []

structure Signed (settings : Settings) (op : Operation) (provider : Key) (list : List Instruction) : Prop where
  signers : ∀ key, key ∈ Instruction.signers list ↔ key ∈ op.signers provider (tokenAccounts list ≠ [])
  programs : list.map Instruction.program =
    op.opening settings ++ List.replicate (tokenAccounts list).length Programs.associatedToken ++ [settings.program]

/- What stands between is signed by the payer if it is there at all. -/
theorem signedBetween (world : World) {op : Operation} {provider : Key} (head : List Instruction) (payer : Key)
    (wanted : List Holding) {c : Command} {accounts : c.Accounts} {params : c.Params} {last : Instruction}
    (built : c.build settings.program accounts params = .ok last) (makes : tokenAccounts head = [])
    (opens : head.map Instruction.program = op.opening settings)
    (keys : ∀ key, key ∈ op.signers provider (missing world settings wanted ≠ []) ↔
      key ∈ signers head ∨ (missing world settings wanted ≠ [] ∧ key = payer) ∨ c.signer? accounts = some key) :
    Signed settings op provider (head ++ creations world settings payer wanted ++ [last]) := by
  have wants : Wants world settings (head ++ creations world settings payer wanted ++ [last]) payer wanted :=
    wantsBetween head payer wanted makes (Instruction.buildMakes built)
  constructor
  · intro key
    have same : (tokenAccounts (head ++ creations world settings payer wanted ++ [last]) ≠ []) ↔
        missing world settings wanted ≠ [] := by
      rw [wants.makes, ne_eq, List.map_eq_nil_iff]
    simp only [same, keys, Instruction.signersBetween, creationsSigners, Instruction.buildSigners built]
    simp [List.mem_replicate]
  · rw [wants.makes, List.length_map, List.map_append, List.map_append, opens, creationsPrograms]
    rw [List.map_singleton, (Command.buildEqOk.1 built).1]

/-- The signal provider of the pool that is loaded, if one is. -/
def ServesPool (world : World) (settings : Settings) (pool : Key) (op : Operation) (provider : Key) : Prop :=
  ∀ seed, op.poolSeed? = some seed → ∃ state, PoolSource world {} settings seed pool state ∧
    state.header.signalProvider = provider

theorem servesLoaded {op : Operation} {seed : Seed} {state : Pool.State} (first : op.poolSeed? = some seed)
    (loaded : PoolSource world {} settings seed pool state) :
    ServesPool world settings pool op state.header.signalProvider := by
  intro other same
  cases first.symm.trans same
  exact ⟨state, loaded, rfl⟩

/- Where the payer signs what opens the list, it makes no difference whether it signs again. -/
theorem Assembled.signed {op : Operation} {answer : op.Answer} (h : Assembled world settings pool mint op answer) :
    ∃ provider, ServesPool world settings pool op provider ∧ Signed settings op provider (op.instructions answer) := by
  cases h with
  | @createPool request _ _ _ _ sources initBuilt createBuilt =>
    refine ⟨default, nofun, signedBetween world [_] _ _ createBuilt ?_ ?_ fun key => ?_⟩
    · exact List.filterMap_cons_none (Instruction.buildMakes initBuilt)
    · exact congrArg (fun program => [program]) (Command.buildEqOk.1 initBuilt).1
    · rw [Instruction.buildSigners initBuilt]
      by_cases pays : key = request.payer <;>
        simp [Operation.signers, Command.signer?, createAccounts, initAccounts, pays, @eq_comm Key key]
  | deposit loaded named built =>
    refine ⟨_, servesLoaded rfl loaded, signedBetween world [] _ _ built rfl rfl fun key => ?_⟩
    simp [Operation.signers, Command.signer?, depositAccounts, signers, @eq_comm Key key]
  | @createOrder payer _ _ _ _ _ _ _ _ _ _ placed told built =>
    refine ⟨_, servesLoaded rfl placed.pool, signedBetween world [_] _ _ built ?_ rfl fun key => ?_⟩
    · exact List.filterMap_cons_none (Instruction.createAccountMakes ..)
    · rw [Instruction.createAccountSigners]
      by_cases pays : key = payer <;>
        simp [Operation.signers, Command.signer?, orderAccounts, pays, @eq_comm Key key]
  | cancelOrder loaded venue resting first built =>
    refine ⟨_, servesLoaded rfl loaded, signedBetween world [] default [] built rfl rfl fun key => ?_⟩
    simp [Operation.signers, Command.signer?, cancelAccounts, signers, missing, @eq_comm Key key]
  | settleFunds loaded venue coinHeld pcHeld signs named built =>
    refine ⟨_, servesLoaded rfl loaded, signedBetween world [] default [] built rfl rfl fun key => ?_⟩
    simp [Operation.signers, Command.signer?, signers, missing]
  | redeem loaded idle named built =>
    refine ⟨_, servesLoaded rfl loaded, signedBetween world [] _ _ built rfl rfl fun key => ?_⟩
    simp [Operation.signers, Command.signer?, redeemAccounts, signers, @eq_comm Key key]
  | collectFees loaded named built =>
    refine ⟨_, servesLoaded rfl loaded, signedBetween world [] _ _ built rfl rfl fun key => ?_⟩
    simp [Operation.signers, Command.signer?, signers]

theorem workflowSigned {op : Operation} {answer : op.Answer} (workflow : op.isWorkflow = true)
    (h : (op.plan settings).outcome world = .ok answer) :
    ∃ provider,
      (∀ seed, op.poolSeed? = some seed → ∃ pool state, PoolSource world {} settings seed pool state ∧
        state.header.signalProvider = provider) ∧
      (∀ key, key ∈ signers (op.instructions answer) ↔
        key ∈ op.signers provider (tokenAccounts (op.instructions answer) ≠ [])) ∧
      (op.instructions answer).map Instruction.program =
        op.opening settings ++
          List.replicate (tokenAccounts (op.instructions answer)).length Programs.associatedToken ++
          [settings.program] := by
  obtain ⟨later, h⟩ := Plan.outcomeYields.1 h
  obtain ⟨pool, mint, made⟩ := assembled workflow h
  obtain ⟨provider, serves, signed⟩ := made.signed
  refine ⟨provider, fun seed first => ?_, signed.signers, signed.programs⟩
  obtain ⟨state, loaded, same⟩ := serves seed first
  exact ⟨pool, state, loaded, same⟩

def asked : Operation := .createOrder (.fill 32 12) (.fill 32 10) askRequest (.fill 32 1)

theorem workflowSignedAsk : ∃ submission : OrderSubmission,
    (asked.plan plainSettings).outcome askWorld = .ok submission ∧
    (∀ key, key ∈ signers submission.instructions ↔ key ∈ [.fill 32 12, .fill 32 1, .fill 32 11]) ∧
    submission.instructions.map Instruction.program =
      [Programs.system, Programs.associatedToken, plainSettings.program] := by
  obtain ⟨submission, run, seen⟩ := Failure.answered askRun
  have three := (Prod.mk.inj seen).1
  have ok : (asked.plan plainSettings).outcome askWorld = .ok submission := run
  obtain ⟨provider, serves, keys, programs⟩ := workflowSigned rfl ok
  obtain ⟨_, _, known, _, named⟩ := askLoaded
  obtain ⟨_, _, loaded, rfl⟩ := serves _ rfl
  obtain ⟨_, rfl⟩ := loaded.same known
  rw [named] at keys
  refine ⟨submission, ok, keys, ?_⟩
  have count := congrArg List.length programs
  simp only [List.length_map, List.length_append, List.length_replicate] at count
  have made : (tokenAccounts submission.instructions).length = 1 := by
    change submission.instructions.length = 1 + (tokenAccounts submission.instructions).length + 1 at count
    omega
  refine programs.trans ?_
  change _ ++ List.replicate (tokenAccounts submission.instructions).length _ ++ _ = _
  rw [made]
  rfl

end Workflow
end TradingPool
