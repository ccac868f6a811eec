import RgbLightning.Swap.SwapAmounts
import RgbLightning.Swap.TakerWhitelist
import RgbLightning.Swap.TakerValue
import RgbLightning.Swap.TakerExpiry
import RgbLightning.Swap.Agreement
import RgbLightning.Swap.MakerOffers
import RgbLightning.Payment.Rejected
import RgbLightning.Payment.Outcomes
import RgbLightning.Rgb.Selection
import RgbLightning.Rgb.SendRgb
import RgbLightning.Node.Colouring
import RgbLightning.Node.LockRelease
import RgbLightning.Node.LockOrder
import RgbLightning.Node.LostUpdate
import RgbLightning.Node.Opening
import RgbLightning.Node.DoubleCommit
import RgbLightning.Node.FundingChange
import RgbLightning.Node.UtxosOnce
import RgbLightning.Node.Restart
import RgbLightning.Node.HexIdentifiers
import RgbLightning.Node.CreateUtxos
import RgbLightning.Node.SelectedInputs
import RgbLightning.Node.SwapBalance
import RgbLightning.Node.FailedOperations
import RgbLightning.Node.SealOutputs
import RgbLightning.Node.SweptAmount
import RgbLightning.Node.Redelivery
import RgbLightning.Base.RecordFile
import RgbLightning.Base.Split
import RgbLightning.Startup.RpcAuth
import RgbLightning.Startup.CredentialSources
import RgbLightning.Startup.ArgsRoundTrip
import RgbLightning.Node.SignMessage
import RgbLightning.Startup.KeysSeed
import RgbLightning.Node.ChannelPeers
import RgbLightning.Base.Guarded
import RgbLightning.Base.Serializable
import RgbLightning.Base.KeyedRuns
import RgbLightning.Payment.Inbound
import RgbLightning.Base.PrintedUnder
import RgbLightning.Node.StateMaps
import RgbLightning.Node.MapSchedules
import RgbLightning.Swap.TwoParties
import RgbLightning.Node.FeeEstimates
import RgbLightning.Rgb.BlindedUtxos
import RgbLightning.Node.CommandGrammar
import RgbLightning.Rgb.Supply
import RgbLightning.Node.OutboundEntries
import RgbLightning.Node.PeersKept
import RgbLightning.Node.TypedAborts
