import RojalMQTT.Library.Buffer
import RojalMQTT.Library.Base128
import RojalMQTT.Library.Machine
import RojalMQTT.Library.Code
import RojalMQTT.FixedHeaderLaws
import RojalMQTT.ConnectFormatLaws
import RojalMQTT.PublishLaws
import RojalMQTT.ActionsLaws
import RojalMQTT.ReceiveLaws
import RojalMQTT.DecoderLaws
import RojalMQTT.KeepaliveLaws
import RojalMQTT.ScheduleLaws
import RojalMQTT.SessionLaws
import RojalMQTT.ConnectionLaws
import RojalMQTT.SubscriptionLaws
import RojalMQTT.TransportLaws
import RojalMQTT.ReadLoop
import RojalMQTT.SubscribeLaws
import RojalMQTT.PublishCallLaws
import RojalMQTT.OpeningLaws
import RojalMQTT.FailureLaws
import RojalMQTT.TransmitLaws
import RojalMQTT.StartLaws
import RojalMQTT.IdentifierLaws
import RojalMQTT.Handshake
import RojalMQTT.ClientPacket
import RojalMQTT.StreamLaws
import RojalMQTT.PhaseLaws
import RojalMQTT.DeliveryLaws
import RojalMQTT.ServerLaws
import RojalMQTT.FaultLaws
import RojalMQTT.CommandLine
import RojalMQTT.CommandLineLaws
import RojalMQTT.Options
import RojalMQTT.OptionsLaws
import RojalMQTT.TransferLaws
import RojalMQTT.MainLaws
import RojalMQTT.Tasks
import RojalMQTT.TasksLaws
import RojalMQTT.HandoverLaws
import RojalMQTT.StallLaws
import RojalMQTT.ConversationLaws
import RojalMQTT.AliveLaws
