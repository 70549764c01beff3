import TradingPool.Command.Params

/-! Payloads of all commands. `pack` puts the byte of the command in front of its fields; `unpack` takes
the payloads of one command and refuses those of the others. -/
namespace TradingPool.Command

def Params : Command → Type
  | .init => Params.Init
  | .create => Params.Create
  | .deposit => Params.Deposit
  | .createOrder => Params.CreateOrder
  | .cancelOrder => Params.CancelOrder
  | .settleFunds => Params.SettleFunds
  | .redeem => Params.Redeem
  | .collectFees => Params.CollectFees

def packFields : (c : Command) → c.Params → Except Failure Bytes
  | .init, p => .ok (Params.Init.layout.write p)
  | .create, p => Params.Create.pack p
  | .deposit, p => .ok (Params.Deposit.layout.write p)
  | .createOrder, p => .ok (Params.CreateOrder.layout.write p)
  | .cancelOrder, p => .ok (Params.CancelOrder.layout.write p)
  | .settleFunds, p => .ok (Params.SettleFunds.layout.write p)
  | .redeem, p => .ok (Params.Redeem.layout.write p)
  | .collectFees, p => .ok (Params.CollectFees.layout.write p)

def decodeFields {α : Type} (layout : Layout α) (s : Bytes) : Except Failure α :=
  match layout.decode s with
  | some p => .ok p
  | none => .error .invalidInstruction

def unpackFields : (c : Command) → Bytes → Except Failure c.Params
  | .init, s => decodeFields Params.Init.layout s
  | .create, s => Params.Create.unpack s
  | .deposit, s => decodeFields Params.Deposit.layout s
  | .createOrder, s => decodeFields Params.CreateOrder.layout s
  | .cancelOrder, s => decodeFields Params.CancelOrder.layout s
  | .settleFunds, s => decodeFields Params.SettleFunds.layout s
  | .redeem, s => decodeFields Params.Redeem.layout s
  | .collectFees, s => decodeFields Params.CollectFees.layout s

def pack (c : Command) (p : c.Params) : Except Failure Bytes := do
  return c.tag :: (← c.packFields p)

def unpack (c : Command) (data : Bytes) : Except Failure c.Params := do
  c.unpackFields (← (c.fields data).mapError TagFault.failure)

def notice? (c : Command) (data : Bytes) : Option String :=
  match c.fields data with
  | .error fault => fault.notice?
  | .ok _ => none

end TradingPool.Command
