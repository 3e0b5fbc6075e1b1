import Rustcast.Browser.SequencerHolds
import Rustcast.Browser.SequencerLoss
import Rustcast.Browser.SequencerReorder
import Rustcast.Browser.DecoderFeedChain
import Rustcast.Relay.WriteChain
import Rustcast.Relay.HostReset
import Rustcast.Host.LossRecovery
import Rustcast.Hostd.CommandAgreement
import Rustcast.Hostd.Bridge
import Rustcast.Hostd.SessionExclusive
import Rustcast.Hostd.SessionAttended
import Rustcast.Hostd.IdleLogout
import Rustcast.Relay.PromptAnswers
import Rustcast.Hostd.LoginExchange
import Rustcast.Relay.WtTickets
import Rustcast.Relay.Sessions
import Rustcast.Browser.Connect
import Rustcast.Browser.ClipboardMessage
import Rustcast.Relay.AuditRetention
import Rustcast.Host.Downscale
import Rustcast.Host.LastRequest
import Rustcast.Host.Verdicts
import Rustcast.Wire.Keyframe
import Rustcast.Browser.StreamReader
import Rustcast.Wire.FrameStream
import Rustcast.Host.PrivacySnapshot
import Rustcast.Relay.Certificate
import Rustcast.Relay.SenderCeiling
import Rustcast.Relay.BitrateTarget
import Rustcast.Host.Scale
import Rustcast.Host.VulkanSession
import Rustcast.Relay.HostLinkEntitlement
import Rustcast.Host.ClipboardSchedules
import Rustcast.Host.EncoderBitrate
import Rustcast.Host.SessionThread
import Rustcast.Relay.FrameOwnership
import Rustcast.Host.Pacing
import Rustcast.Host.AudioFramer
import Rustcast.Browser.AudioWorklet
import Rustcast.Host.DxgiPointer
import Rustcast.Host.Nv12Fused
import Rustcast.Host.Nv12Planes
import Rustcast.Host.FrameBridge
import Rustcast.Relay.DeliveryRecords
